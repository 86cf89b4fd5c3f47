/-! Opcodes and their mnemonics. -/

namespace ValueNumbering

inductive Opcode
  | add | sub | mul | udiv | sdiv | urem | srem | shl | lshr | ashr | and | or | xor
  | fadd | fsub | fmul | fdiv | frem
  | load | store | alloca
  | ret | br | icmp | call | getelementptr | phi | select | other
  deriving DecidableEq, Repr, Inhabited

namespace Opcode

def all : List Opcode :=
  [.add, .sub, .mul, .udiv, .sdiv, .urem, .srem, .shl, .lshr, .ashr, .and, .or, .xor,
    .fadd, .fsub, .fmul, .fdiv, .frem, .load, .store, .alloca,
    .ret, .br, .icmp, .call, .getelementptr, .phi, .select, .other]

def mnemonic : Opcode → String
  | .add => "add"
  | .sub => "sub"
  | .mul => "mul"
  | .udiv => "udiv"
  | .sdiv => "sdiv"
  | .urem => "urem"
  | .srem => "srem"
  | .shl => "shl"
  | .lshr => "lshr"
  | .ashr => "ashr"
  | .and => "and"
  | .or => "or"
  | .xor => "xor"
  | .fadd => "fadd"
  | .fsub => "fsub"
  | .fmul => "fmul"
  | .fdiv => "fdiv"
  | .frem => "frem"
  | .load => "load"
  | .store => "store"
  | .alloca => "alloca"
  | .ret => "ret"
  | .br => "br"
  | .icmp => "icmp"
  | .call => "call"
  | .getelementptr => "getelementptr"
  | .phi => "phi"
  | .select => "select"
  | .other => "other"

def ofMnemonic? (name : String) : Option Opcode := all.find? fun opcode => opcode.mnemonic == name

/-- An unknown mnemonic belongs to an instruction that is not modelled. -/
def ofMnemonic (name : String) : Opcode := (ofMnemonic? name).getD .other

def isBinary : Opcode → Bool
  | .add | .sub | .mul | .udiv | .sdiv | .urem | .srem | .shl | .lshr | .ashr | .and | .or | .xor
  | .fadd | .fsub | .fmul | .fdiv | .frem => true
  | _ => false

def isCommutative : Opcode → Bool
  | .add | .mul | .fadd | .fmul => true
  | _ => false

/-- The name in diagnostics, where signed and unsigned division read alike. -/
def label : Opcode → String
  | .udiv | .sdiv => "div"
  | opcode => opcode.mnemonic

theorem ofMnemonic_mnemonic (opcode : Opcode) : ofMnemonic opcode.mnemonic = opcode := by
  cases opcode <;> rfl

theorem isBinary_of_isCommutative {opcode : Opcode} (commutes : opcode.isCommutative = true) :
    opcode.isBinary = true := by
  cases opcode <;> simp_all [isCommutative, isBinary]

end Opcode

end ValueNumbering

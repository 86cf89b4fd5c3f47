import ValueNumbering.IR.Builder
import ValueNumbering.Proofs.Assembly.PrintedInstructions

/-!
Calls to a builder as data, what their names and types may be, and the functions that they build. An
operand of a call is counted among the values that earlier calls have returned.
-/

namespace ValueNumbering

open Text Assembly

namespace Builder

inductive Call
  | argument (name type : String)
  | literal (value : Int) (type : String)
  | global (name : String)
  | block (name : String)
  | alloca (name : Option String) (type : String)
  | store (value pointer : Nat)
  | load (pointer : Nat) (name : Option String) (type : String)
  | binary (opcode : Opcode) (lhs rhs : Nat) (name : Option String) (type : String)
  | ret (value : Option Nat)
  deriving DecidableEq, Repr

/-- A builder with the values that its calls have returned so far. -/
structure Session where
  builder : Builder
  obtained : List Operand := []
  deriving Repr

namespace Session

def start (name returnType : String) : Session :=
  { builder := { name := name, returnType := returnType } }

def call (s : Session) : Call → Option Session
  | .argument name type =>
      let (arg, b) := s.builder.argument name type
      some ⟨b, s.obtained ++ [arg.operand]⟩
  | .literal value type =>
      let (operand, b) := s.builder.literal value type
      some ⟨b, s.obtained ++ [operand]⟩
  | .global name =>
      let (operand, b) := s.builder.global name
      some ⟨b, s.obtained ++ [operand]⟩
  | .block name => some { s with builder := s.builder.block name }
  | .alloca name type =>
      let (inst, b) := s.builder.alloca name (some type)
      some ⟨b, s.obtained ++ [inst.operand]⟩
  | .store value pointer => do
      let value ← s.obtained[value]?
      let pointer ← s.obtained[pointer]?
      return { s with builder := (s.builder.store value pointer).2 }
  | .load pointer name type => do
      let pointer ← s.obtained[pointer]?
      let (inst, b) := s.builder.load pointer name type
      return ⟨b, s.obtained ++ [inst.operand]⟩
  | .binary opcode lhs rhs name type => do
      let lhs ← s.obtained[lhs]?
      let rhs ← s.obtained[rhs]?
      let (inst, b) := s.builder.binary opcode lhs rhs name type
      return ⟨b, s.obtained ++ [inst.operand]⟩
  | .ret none => some { s with builder := (s.builder.ret none).2 }
  | .ret (some value) => do
      let value ← s.obtained[value]?
      return { s with builder := (s.builder.ret (some value)).2 }

def run (s : Session) : List Call → Option Session
  | [] => some s
  | call :: rest => do
      let s ← s.call call
      s.run rest

end Session

def built? (name returnType : String) (calls : List Call) : Option Function :=
  ((Session.start name returnType).run calls).map (·.builder.build)

def Call.globalName? : Call → Option String
  | .global name => some name
  | _ => none

end Builder

def isPlainNameChar (c : Char) : Bool :=
  c.isAlphanum || c == '-' || c == '_' || c == '.' || c == '$'

def isPlainTypeChar (c : Char) : Bool := c.isAlphanum || c == '_' || c == '.' || c == '%'

structure PlainName (name : String) : Prop where
  nonempty : name.toList ≠ []
  within : ∀ c ∈ name.toList, isPlainNameChar c = true
  short : name.toList.length < Integer.digitLimit

/-- A single word that says nothing else where a type stands. -/
structure PlainType (type : String) : Prop where
  nonempty : type.toList ≠ []
  within : ∀ c ∈ type.toList, isPlainTypeChar c = true
  notFlag : isBinaryFlag type.toList = false
  notVolatile : "volatile".toList.isPrefixOf? type.toList = none

instance (name : String) : Decidable (PlainName name) :=
  decidable_of_iff (name.toList ≠ [] ∧ name.toList.all isPlainNameChar = true ∧
    name.toList.length < Integer.digitLimit)
    ⟨fun ⟨nonempty, within, short⟩ => ⟨nonempty, List.all_eq_true.mp within, short⟩,
      fun name => ⟨name.nonempty, List.all_eq_true.mpr name.within, name.short⟩⟩

instance (type : String) : Decidable (PlainType type) :=
  decidable_of_iff (type.toList ≠ [] ∧ type.toList.all isPlainTypeChar = true ∧
      isBinaryFlag type.toList = false ∧ "volatile".toList.isPrefixOf? type.toList = none)
    ⟨fun ⟨nonempty, within, notFlag, notVolatile⟩ =>
      ⟨nonempty, List.all_eq_true.mp within, notFlag, notVolatile⟩,
      fun type => ⟨type.nonempty, List.all_eq_true.mpr type.within, type.notFlag, type.notVolatile⟩⟩

namespace Builder

/-- What the names, types and literals of a call may be. -/
def Call.WellFormed : Call → Prop
  | .argument name type => PlainName name ∧ PlainType type
  | .literal value type =>
      PlainType type ∧ (type = "i1" → value = 0 ∨ value = 1) ∧
        value.natAbs < Nat.pow 10 Integer.digitLimit
  | .global name => PlainName name
  | .block name => PlainName name
  | .alloca name type => (∀ given ∈ name, PlainName given) ∧ PlainType type
  | .store _ _ => True
  | .load _ name type => (∀ given ∈ name, PlainName given) ∧ PlainType type
  | .binary opcode _ _ name type =>
    opcode.isBinary = true ∧ (∀ given ∈ name, PlainName given) ∧ PlainType type
  | .ret _ => True

instance : (call : Call) → Decidable call.WellFormed
  | .argument name type => inferInstanceAs (Decidable (PlainName name ∧ PlainType type))
  | .literal value type => inferInstanceAs
      (Decidable (PlainType type ∧ (type = "i1" → value = 0 ∨ value = 1) ∧
      value.natAbs < Nat.pow 10 Integer.digitLimit))
  | .global name => inferInstanceAs (Decidable (PlainName name))
  | .block name => inferInstanceAs (Decidable (PlainName name))
  | .alloca name type => inferInstanceAs
      (Decidable ((∀ given ∈ name, PlainName given) ∧ PlainType type))
  | .store _ _ => inferInstanceAs (Decidable True)
  | .load _ name type => inferInstanceAs
      (Decidable ((∀ given ∈ name, PlainName given) ∧ PlainType type))
  | .binary opcode _ _ name type => inferInstanceAs (Decidable
      (opcode.isBinary = true ∧ (∀ given ∈ name, PlainName given) ∧ PlainType type))
  | .ret _ => inferInstanceAs (Decidable True)

/-- Calls that build a function whose names tell its arguments, results and globals apart. -/
structure Builds (name returnType : String) (calls : List Call) (fn : Function) : Prop where
  built : built? name returnType calls = some fn
  name : PlainName name
  returnType : PlainType returnType
  wellFormed : ∀ call ∈ calls, call.WellFormed
  globals : (calls.filterMap (·.globalName?)).Nodup
  names : (fn.arguments.map (·.name) ++ fn.instructions.filterMap (·.name)).Nodup
  nonempty : fn.instructions ≠ []

end Builder

end ValueNumbering

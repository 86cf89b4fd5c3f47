import ValueNumbering.Numbering.Action

/-!
The diagnostic line of an instruction: its text, padded to a column, then what was decided. Longer
text is not cut.
-/

namespace ValueNumbering

inductive NumberingFault
  | operands (fault : OperandFault)
  | columnOutOfRange
  deriving DecidableEq, Repr

def NumberingFault.message : NumberingFault → String
  | .operands fault => fault.message
  | .columnOutOfRange => "Python int too large to convert to C ssize_t"

namespace Line

/-- A column is a signed number of 64 bits. -/
def columnInRange (column : Int) : Bool :=
  -9223372036854775808 ≤ column && column < 9223372036854775808

def pad (text : String) (column : Int) : String :=
  text ++ String.ofList (List.replicate (column - text.length).toNat ' ')

def padded (inst : Instruction) (column : Int) : Except NumberingFault String :=
  match inst.written with
  | .error fault => .error (.operands fault)
  | .ok text => if columnInRange column then .ok (pad text column) else .error .columnOutOfRange

def storeTail (pointer value : Int) : String := s!" {pointer} = {value}"

/-- A pointer without a number is shown as zero. -/
def loadTail (number : Int) (pointer : Option Int) : String := s!" {number} = {pointer.getD 0}"

def binaryTail (opcode : Opcode) (number lhs rhs : Int) (redundant : Bool) : String :=
  s!" {number} = {lhs} {opcode.label} {rhs}" ++ (if redundant then " (redundant)" else "")

def store (inst : Instruction) (pointer value : Int) (column : Int := 40) :
    Except NumberingFault String :=
  return (← padded inst column) ++ storeTail pointer value

def load (inst : Instruction) (number : Int) (pointer : Option Int) (column : Int := 40) :
    Except NumberingFault String :=
  return (← padded inst column) ++ loadTail number pointer

def binary (inst : Instruction) (number lhs rhs : Int) (redundant : Bool := false)
    (column : Int := 40) :
    Except NumberingFault String :=
  return (← padded inst column) ++ binaryTail inst.opcode number lhs rhs redundant

def ofDecision (inst : Instruction) (decision : Decision) (column : Int) :
    Except NumberingFault String :=
  match inst.opcode, decision.operands with
  | .store, _ => store inst decision.number decision.number column
  | .load, pointer :: _ => load inst decision.number pointer column
  | _, [some lhs, some rhs] => binary inst decision.number lhs rhs decision.redundant column
  | _, _ => padded inst column

end Line

end ValueNumbering

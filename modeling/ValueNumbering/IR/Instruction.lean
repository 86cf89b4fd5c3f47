import ValueNumbering.IR.Opcode
import ValueNumbering.IR.Value
import ValueNumbering.Text.Words

/-!
Instructions and their text. A store has the stored value and the pointer as operands, a load its
pointer, a binary operation both sides and an allocation none. An instruction read from text keeps
its line.
-/

namespace ValueNumbering

structure Instruction where
  id : Nat
  opcode : Opcode
  operands : List Operand := []
  type : String := "void"
  name : Option String := none
  flags : List String := []
  align : Option Int := none
  allocatedType : Option String := none
  text : Option String := none
  deriving DecidableEq, Repr, Inhabited

/-- An instruction without the operands that its opcode calls for. -/
inductive OperandFault
  | missing
  | notTwo (found : Nat)
  deriving DecidableEq, Repr

def OperandFault.message : OperandFault → String
  | .missing => "list index out of range"
  | .notTwo found =>
      if found < 2 then s!"not enough values to unpack (expected 2, got {found})"
      else "too many values to unpack (expected 2)"

namespace Instruction

def result (inst : Instruction) : Value := ⟨inst.id, .result inst.name⟩

def operand (inst : Instruction) : Operand := ⟨inst.type, inst.result⟩

def isBinary (inst : Instruction) : Bool := inst.opcode.isBinary

def valueOperand (inst : Instruction) : Except OperandFault Operand :=
  match inst.operands.head? with
  | some operand => .ok operand
  | none => .error .missing

/-- The last operand, the address of a store or a load. -/
def pointerOperand (inst : Instruction) : Except OperandFault Operand :=
  match inst.operands.getLast? with
  | some operand => .ok operand
  | none => .error .missing

def twoOperands (inst : Instruction) : Except OperandFault (Operand × Operand) :=
  match inst.operands with
  | [first, second] => .ok (first, second)
  | operands => .error (.notTwo operands.length)

def typedUse (operand : Operand) : String := operand.type ++ " " ++ operand.value.form.spelling

def alignText (inst : Instruction) : String :=
  match inst.align with
  | some n => s!", align {n}"
  | none => ""

def binding (inst : Instruction) : String :=
  match inst.name with
  | some name => s!"%{name} = "
  | none => ""

def elementType (inst : Instruction) : String :=
  match inst.allocatedType with
  | none | some "" => "i32"
  | some type => type

def trimEnd (text : String) : String := String.ofList (Text.trimRight text.toList)

def built (inst : Instruction) : Except OperandFault String :=
  match inst.opcode with
  | .store => do
      let (value, pointer) ← inst.twoOperands
      return s!"store {typedUse value}, {typedUse pointer}" ++ inst.alignText
  | .load =>
      match inst.operands with
      | pointer :: _ =>
        .ok (inst.binding ++ s!"load {inst.type}, {typedUse pointer}" ++ inst.alignText)
      | [] => .error .missing
  | .alloca => .ok (inst.binding ++ s!"alloca {inst.elementType}" ++ inst.alignText)
  | .ret =>
      match inst.operands with
      | value :: _ => .ok s!"ret {typedUse value}"
      | [] => .ok "ret void"
  | opcode =>
      if opcode.isBinary then do
        let (lhs, rhs) ← inst.twoOperands
        let flags := String.join (inst.flags.map (" " ++ ·))
        return inst.binding ++
          s!"{opcode.mnemonic}{flags} {inst.type} {lhs.value.form.spelling}, {rhs.value.form.spelling}"
      else
        .ok (trimEnd (inst.binding ++ s!"{opcode.mnemonic} " ++
          ", ".intercalate (inst.operands.map typedUse)))

/-- The line that was read, else the text from the parts. -/
def written (inst : Instruction) : Except OperandFault String :=
  match inst.text with
  | some line => .ok line
  | none => inst.built

end Instruction

end ValueNumbering

import ValueNumbering.IR.Module
import ValueNumbering.Numbering.Line

/-!
Numbering of a function: every instruction in program order, each leaving a record with its line. A
run that meets a fault keeps the records before it.
-/

namespace ValueNumbering

structure Record extends Decision where
  instruction : Instruction
  line : String
  deriving DecidableEq, Repr, Inhabited

structure Numbering where
  knowledge : Knowledge := {}
  records : List Record := []
  deriving Repr, Inhabited

namespace Numbering

structure Settings where
  shareLiterals : Bool := true
  column : Int := 40
  deriving DecidableEq, Repr, Inhabited

/-- The records so far and the fault that ended the run, if one did. -/
structure Outcome where
  numbering : Numbering
  fault : Option NumberingFault := none
  deriving Repr, Inhabited

def lines (n : Numbering) : List String := n.records.map (·.line)

def redundant (n : Numbering) : List Record := n.records.filter (·.redundant)

def number? (n : Numbering) (v : Value) : Option Int := n.knowledge.store.values.find? v

def visit (column : Int) (n : Numbering) (inst : Instruction) : Except NumberingFault Numbering :=
  match inst.action with
  | .error fault => .error (.operands fault)
  | .ok none => .ok n
  | .ok (some action) =>
      let (decision, knowledge) := n.knowledge.perform action
      match Line.ofDecision inst decision column with
      | .error fault => .error fault
      | .ok line =>
        .ok ⟨knowledge, n.records ++ [{ decision with instruction := inst, line := line }]⟩

def visitAll (column : Int) : Numbering → List Instruction → Outcome
  | n, [] => ⟨n, none⟩
  | n, inst :: rest =>
      match visit column n inst with
      | .error fault => ⟨n, some fault⟩
      | .ok n => visitAll column n rest

def ofInstructions (settings : Settings) (instructions : List Instruction) : Outcome :=
  visitAll settings.column { knowledge := { store := { shareLiterals := settings.shareLiterals } } }
    instructions

def ofFunction (settings : Settings) (fn : Function) : Outcome :=
  ofInstructions settings fn.instructions

end Numbering

end ValueNumbering

import ValueNumbering.Pass.Config

/-!
Function passes. A pass has a state of its own and metrics that its host resets; it looks at one
function at a time and says whether what is known about the function remains valid.
-/

namespace ValueNumbering

/-- Whether a pass left everything that was known about a function valid. -/
inductive Preserved
  | all
  | none
  deriving DecidableEq, Repr, Inhabited

namespace Preserved

def areAllPreserved : Preserved → Bool
  | .all => true
  | .none => false

def intersect : Preserved → Preserved → Preserved
  | .all, .all => .all
  | _, _ => .none

def summary : Preserved → String
  | .all => "PreservedAnalyses.all()"
  | .none => "PreservedAnalyses.none()"

theorem intersect_eq_all_iff (first second : Preserved) :
    first.intersect second = .all ↔ first = .all ∧ second = .all := by
  cases first <;> cases second <;> simp [intersect]

end Preserved

structure Metrics where
  functions : Nat := 0
  instructions : Nat := 0
  custom : Dictionary String Int := ∅
  messages : List String := []
  deriving DecidableEq, Repr, Inhabited

namespace Metrics

def addMessage (m : Metrics) (message : String) : Metrics :=
  { m with messages := m.messages ++ [message] }

def count (m : Metrics) (key : String) (n : Int) : Metrics :=
  { m with custom := m.custom.insert key ((m.custom.find? key).getD 0 + n) }

def addFunction (m : Metrics) (fn : Function) : Metrics :=
  { m with functions := m.functions + 1, instructions := m.instructions + fn.instructionCount }

end Metrics

inductive PassFault
  | config (fault : ConfigFault)
  | numbering (fault : NumberingFault)

def PassFault.message : PassFault → String
  | .config fault => fault.message
  | .numbering fault => fault.message

structure PassState (σ : Type) where
  own : σ
  metrics : Option Metrics := none
  deriving Inhabited

def PassState.addMessage {σ : Type} (s : PassState σ) (message : String) : PassState σ :=
  { s with metrics := s.metrics.map (·.addMessage message) }

/-- A visit to a function: the state after it, what it wrote and how it ended. -/
structure Visit (σ : Type) where
  state : PassState σ
  diagnostics : String := ""
  result : Except PassFault Preserved

structure Pass (σ : Type) where
  name : String
  aliases : List String := []
  visit : Function → PassConfig → PassState σ → Visit σ

end ValueNumbering

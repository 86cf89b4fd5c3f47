import ValueNumbering.Proofs.Numbering.Actions
import ValueNumbering.Proofs.Numbering.Term

/-!
Symbolic execution of a function. Values are bound to terms and so are the cells that pointers lead
to; no number, no key and no table takes part.
-/

namespace ValueNumbering

/-- What an action is about: the term of its number and the terms of its operands. The operand of a
load is what its cell holds. -/
structure Meaning where
  term : Term
  operands : List (Option Term)
  deriving DecidableEq, Repr

structure Symbolic where
  shareLiterals : Bool
  bindings : Dictionary Value Term := ∅
  cells : Dictionary Value Term := ∅
  position : Nat := 0
  deriving DecidableEq, Repr

namespace Symbolic

def bound (s : Symbolic) (v : Value) : Term := (s.bindings.find? v).getD (.unbound v)

def term (s : Symbolic) (v : Value) : Term :=
  match s.shareLiterals, v.literal? with
  | true, some literal => .literal literal
  | _, _ => s.bound v

def bind (s : Symbolic) (v : Value) (t : Term) : Symbolic :=
  { s with bindings := s.bindings.insert v t }

def write (s : Symbolic) (pointer : Value) (t : Term) : Symbolic :=
  { s with cells := s.cells.insert pointer t }

def advance (s : Symbolic) : Symbolic := { s with position := s.position + 1 }

theorem bound_bind (s : Symbolic) (v : Value) (t : Term) (w : Value) :
    (s.bind v t).bound w = if v = w then t else s.bound w := by
  unfold bound bind
  rw [Dictionary.find?_insert]
  split <;> rfl

@[simp] theorem bound_advance (s : Symbolic) (v : Value) : s.advance.bound v = s.bound v := rfl

def perform (s : Symbolic) : Action → Meaning × Symbolic
  | .store value pointer =>
    (⟨s.term value, [some (s.term value)]⟩, (s.write pointer (s.term value)).advance)
  | .load result pointer =>
      let t := (s.cells.find? pointer).getD (.loaded s.position)
      (⟨t, [s.cells.find? pointer]⟩, (s.bind result t).advance)
  | .binary opcode result lhs rhs =>
      let t := Term.operation opcode (s.term lhs) (s.term rhs)
      (⟨t, [some (s.term lhs), some (s.term rhs)]⟩, (s.bind result t).advance)

def performAll (s : Symbolic) : List Action → List Meaning × Symbolic
  | [] => ([], s)
  | action :: rest =>
      let (meaning, s) := s.perform action
      let (meanings, s) := s.performAll rest
      (meaning :: meanings, s)

theorem performAll_concat (s : Symbolic) (actions : List Action) (action : Action) :
    s.performAll (actions ++ [action]) =
      ((s.performAll actions).1 ++ [((s.performAll actions).2.perform action).1],
        ((s.performAll actions).2.perform action).2) := by
  induction actions generalizing s with
  | nil => rfl
  | cons first rest ih => simp [performAll, ih]

end Symbolic

/-- The meanings of the actions of a function in program order. -/
def Function.meanings (shareLiterals : Bool) (fn : Function) : List Meaning :=
  (Symbolic.performAll { shareLiterals := shareLiterals } fn.actions).1

def Decision.numbers (d : Decision) : List (Option Int) := some d.number :: d.operands

def Meaning.terms (m : Meaning) : List (Option Term) := some m.term :: m.operands

/-- Every number of a run beside the term it stands for. -/
def numbersWithTerms (records : List Record) (meanings : List Meaning) :
    List (Option Int × Option Term) :=
  (records.zip meanings).flatMap fun entry => entry.1.numbers.zip entry.2.terms

end ValueNumbering

import ValueNumbering.IR.Opcode
import ValueNumbering.IR.Value

/-!
Terms that a function computes, read without any numbers. Two terms count as the same when they
differ in the order of the operands of commutative operations only, at any depth.
-/

namespace ValueNumbering

inductive Term
  /-- A literal, where equal literals are shared. -/
  | literal (value : Int)
  /-- A value that nothing has been bound to. -/
  | unbound (value : Value)
  /-- What the action at a position of the run loads from a place that was never written. -/
  | loaded (position : Nat)
  | operation (opcode : Opcode) (lhs rhs : Term)
  deriving DecidableEq, Repr

namespace Term

inductive Same : Term → Term → Prop
  | refl (t : Term) : Same t t
  | symm {s t : Term} (same : Same s t) : Same t s
  | trans {s t u : Term} (first : Same s t) (second : Same t u) : Same s u
  | congr {lhs lhs' rhs rhs' : Term} (opcode : Opcode) (left : Same lhs lhs')
      (right : Same rhs rhs') :
      Same (operation opcode lhs rhs) (operation opcode lhs' rhs')
  | swap {opcode : Opcode} (commutes : opcode.isCommutative = true) (lhs rhs : Term) :
      Same (operation opcode lhs rhs) (operation opcode rhs lhs)

/-- Operands that agree one by one, or crosswise where the opcode lets them. -/
def SameOperands (opcode : Opcode) (lhs rhs lhs' rhs' : Term) : Prop :=
  (Same lhs lhs' ∧ Same rhs rhs') ∨ (opcode.isCommutative = true ∧ Same lhs rhs' ∧ Same rhs lhs')

/-- What the head of one term says about the head of another. -/
def SameHead : Term → Term → Prop
  | operation opcode lhs rhs, operation opcode' lhs' rhs' =>
      opcode = opcode' ∧ SameOperands opcode lhs rhs lhs' rhs'
  | s, t => s = t

theorem SameHead.symm {s t : Term} (heads : SameHead s t) : SameHead t s := by
  cases s <;> cases t <;> simp only [SameHead] at heads ⊢ <;> try exact heads.symm
  obtain ⟨rfl, operands⟩ := heads
  refine ⟨rfl, ?_⟩
  rcases operands with ⟨left, right⟩ | ⟨commutes, left, right⟩
  · exact Or.inl ⟨left.symm, right.symm⟩
  · exact Or.inr ⟨commutes, right.symm, left.symm⟩

theorem SameHead.trans {s t u : Term} (first : SameHead s t) (second : SameHead t u) :
    SameHead s u := by
  cases s with
  | operation opcode lhs rhs =>
      cases t with
      | operation opcode' lhs' rhs' =>
          cases u with
          | operation opcode'' lhs'' rhs'' =>
              obtain ⟨rfl, operands⟩ := first
              obtain ⟨rfl, operands'⟩ := second
              refine ⟨rfl, ?_⟩
              rcases operands with ⟨left, right⟩ | ⟨commutes, left, right⟩ <;>
                rcases operands' with ⟨left', right'⟩ | ⟨commutes', left', right'⟩
              · exact Or.inl ⟨left.trans left', right.trans right'⟩
              · exact Or.inr ⟨commutes', left.trans left', right.trans right'⟩
              · exact Or.inr ⟨commutes, left.trans right', right.trans left'⟩
              · exact Or.inl ⟨left.trans right', right.trans left'⟩
          | _ => cases second
      | _ => cases first
  | _ => cases t <;> cases first; exact second

theorem Same.head {s t : Term} (same : Same s t) : SameHead s t := by
  induction same with
  | refl t =>
      cases t with
      | operation opcode lhs rhs => exact ⟨rfl, Or.inl ⟨.refl lhs, .refl rhs⟩⟩
      | _ => rfl
  | symm _ ih => exact ih.symm
  | trans _ _ first second => exact first.trans second
  | congr opcode left right => exact ⟨rfl, Or.inl ⟨left, right⟩⟩
  | swap commutes lhs rhs => exact ⟨rfl, Or.inr ⟨commutes, .refl lhs, .refl rhs⟩⟩

def IsAtom : Term → Prop
  | operation _ _ _ => False
  | _ => True

theorem same_atom_iff {t u : Term} (atom : u.IsAtom) : Same t u ↔ t = u := by
  constructor
  · intro same
    have heads := same.head
    cases u <;> cases t <;> first | exact heads | exact atom.elim
  · rintro rfl
    exact .refl _

theorem same_operation_iff {opcode : Opcode} {lhs rhs t : Term} :
    Same t (operation opcode lhs rhs) ↔
      ∃ lhs' rhs', t = operation opcode lhs' rhs' ∧ SameOperands opcode lhs' rhs' lhs rhs := by
  constructor
  · intro same
    have heads := same.head
    cases t with
    | operation opcode' lhs' rhs' =>
        obtain ⟨rfl, operands⟩ := heads
        exact ⟨lhs', rhs', rfl, operands⟩
    | _ => cases heads
  · rintro ⟨lhs', rhs', rfl, ⟨left, right⟩ | ⟨commutes, left, right⟩⟩
    · exact .congr opcode left right
    · exact (Same.congr opcode left right).trans (.swap commutes rhs lhs)

end Term

end ValueNumbering

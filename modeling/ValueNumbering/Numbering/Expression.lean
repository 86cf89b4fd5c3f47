import ValueNumbering.IR.Opcode

/-! The key of a computation: an opcode and the numbers of its operands. -/

namespace ValueNumbering

structure Expression where
  opcode : Opcode
  lhs : Int
  rhs : Int
  deriving DecidableEq, Repr, Inhabited

namespace Expression

/-- Where operands commute, the smaller number comes first. -/
def canonical (opcode : Opcode) (lhs rhs : Int) : Expression :=
  if opcode.isCommutative ∧ rhs < lhs then ⟨opcode, rhs, lhs⟩ else ⟨opcode, lhs, rhs⟩

theorem canonical_cases (opcode : Opcode) (lhs rhs : Int) :
    canonical opcode lhs rhs = ⟨opcode, lhs, rhs⟩ ∨
      opcode.isCommutative = true ∧ canonical opcode lhs rhs = ⟨opcode, rhs, lhs⟩ := by
  unfold canonical
  split
  · next swapped => exact Or.inr ⟨swapped.1, rfl⟩
  · exact Or.inl rfl

theorem canonical_comm {opcode : Opcode} (commutes : opcode.isCommutative = true) (lhs rhs : Int) :
    canonical opcode lhs rhs = canonical opcode rhs lhs := by
  rcases Int.lt_trichotomy lhs rhs with less | rfl | more
  · simp [canonical, commutes, less, Int.lt_asymm less]
  · rfl
  · simp [canonical, commutes, more, Int.lt_asymm more]

theorem canonical_eq_iff {opcode opcode' : Opcode} {lhs rhs lhs' rhs' : Int} :
    canonical opcode lhs rhs = canonical opcode' lhs' rhs' ↔
      opcode = opcode' ∧
        ((lhs = lhs' ∧ rhs = rhs') ∨ (opcode.isCommutative = true ∧ lhs = rhs' ∧ rhs = lhs')) := by
  constructor
  · intro same
    rcases canonical_cases opcode lhs rhs with first | ⟨commutes, first⟩ <;>
      rcases canonical_cases opcode' lhs' rhs' with second | ⟨commutes', second⟩ <;>
      rw [first, second] at same <;> obtain ⟨rfl, rfl, rfl⟩ := Expression.mk.inj same <;> simp_all
  · rintro ⟨rfl, ⟨rfl, rfl⟩ | ⟨commutes, rfl, rfl⟩⟩
    · rfl
    · exact canonical_comm commutes _ _

/-- Keys are ordered by mnemonic, then by their numbers. -/
def Precedes (first second : Expression) : Prop :=
  first.opcode.mnemonic < second.opcode.mnemonic ∨
    first.opcode = second.opcode ∧
      (first.lhs < second.lhs ∨ first.lhs = second.lhs ∧ first.rhs < second.rhs)

instance (first second : Expression) : Decidable (Precedes first second) := by
  unfold Precedes
  infer_instance

def precedesOrEq (first second : Expression) : Bool :=
  decide (first = second) || decide (Precedes first second)

def sorted (expressions : List Expression) : List Expression :=
  expressions.eraseDups.mergeSort precedesOrEq

end Expression

end ValueNumbering

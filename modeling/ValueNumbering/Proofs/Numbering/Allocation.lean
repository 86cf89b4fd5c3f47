import ValueNumbering.Proofs.Numbering.Operands
import ValueNumbering.Proofs.Numbering.History
import ValueNumbering.Proofs.Numbering.Symbolic

/-!
No number is given out in secret: what a resolved operand, a load or an operation takes is mentioned
in the decision, so every number below the next one occurs in a record.
-/

namespace ValueNumbering

namespace Store

theorem next_resolve_of_unknown {s : Store} {v : Value} (unknown : s.known? v = none) :
    (s.resolve v).2.next = s.next + 1 := by
  rw [resolve_of_unknown unknown]
  cases sharedLiteral? s.shareLiterals v <;> rfl

/-- At first sight an operand takes the next number; one that is known takes none. -/
theorem next_resolve (s : Store) (v : Value) :
    (s.resolve v).2.next = s.next ∨ (s.resolve v).1 = s.next ∧
      (s.resolve v).2.next = s.next + 1 := by
  cases known : s.known? v with
  | some number =>
      left
      rw [resolve_of_known known]
  | none =>
      right
      exact ⟨by rw [resolve_of_unknown known], next_resolve_of_unknown known⟩

theorem eq_resolve_of_new {s : Store} {v : Value} {n : Int} (low : s.next ≤ n)
    (high : n < (s.resolve v).2.next) :
    n = (s.resolve v).1 := by
  rcases s.next_resolve v with same | ⟨number, next⟩ <;> omega

end Store

namespace Knowledge

theorem mem_numbers_of_new {k : Knowledge} {action : Action} {n : Int} (low : k.store.next ≤ n)
    (high : n < (k.perform action).2.store.next) : some n ∈ (k.perform action).1.numbers := by
  cases action with
  | store value pointer =>
      have number : n = (k.store.resolve value).1 := Store.eq_resolve_of_new low high
      rw [number]
      exact List.mem_cons_self ..
  | load result pointer =>
      cases written : k.store.pointerNumber pointer with
      | some number =>
          rw [perform, loadFrom_written written] at high
          exact absurd high (Int.not_lt.mpr low)
      | none =>
          rw [perform, loadFrom_unwritten written] at high ⊢
          have number : n = k.store.next := Int.le_antisymm (Int.lt_add_one_iff.mp high) low
          rw [number]
          exact List.mem_cons_self ..
  | binary opcode result lhs rhs =>
      rcases resolved : k.store.resolve lhs with ⟨left, first⟩
      rcases resolved' : first.resolve rhs with ⟨right, second⟩
      have fromLeft : n < first.next → n = left := by
        intro early
        have isNew : n < (k.store.resolve lhs).2.next := by rwa [resolved]
        rw [Store.eq_resolve_of_new low isNew, resolved]
      have fromRight : first.next ≤ n → n < second.next → n = right := by
        intro late early
        have isNew : n < (first.resolve rhs).2.next := by rwa [resolved']
        rw [Store.eq_resolve_of_new late isNew, resolved']
      have fromOperands : n < second.next → some n ∈ [some left, some right] := by
        intro early
        rcases Int.lt_or_le n first.next with isLeft | isRight
        · simp [fromLeft isLeft]
        · simp [fromRight isRight early]
      cases found : k.table.find? (Expression.canonical opcode left right) with
      | some number =>
          rw [perform, compute_known resolved resolved' found] at high ⊢
          exact List.mem_cons_of_mem _ (fromOperands high)
      | none =>
          rw [perform, compute_new resolved resolved' found] at high ⊢
          rcases Int.lt_or_le n second.next with isOperand | isResult
          · exact List.mem_cons_of_mem _ (fromOperands isOperand)
          · have number : n = second.next := Int.le_antisymm (Int.lt_add_one_iff.mp high) isResult
            rw [number]
            exact List.mem_cons_self ..

end Knowledge

namespace Numbering

/-- Every number that has been given out occurs in a record. -/
def Mentioned (n : Numbering) : Prop :=
  ∀ number, 1 ≤ number → number < n.knowledge.store.next → ∃ r ∈ n.records, some number ∈ r.numbers

theorem Mentioned.visit {column : Int} {n next : Numbering} {inst : Instruction}
    (mentioned : Mentioned n) (visited : Visited column n inst next) : Mentioned next := by
  cases visited with
  | skipped unmodelled => exact mentioned
  | @recorded action line found shown =>
      intro number positive given
      rcases Int.lt_or_le number n.knowledge.store.next with old | new
      · obtain ⟨r, isRecord, mentions⟩ := mentioned number positive old
        exact ⟨r, List.mem_append_left _ isRecord, mentions⟩
      · exact ⟨_, List.mem_append_right _ (List.mem_singleton_self _),
          Knowledge.mem_numbers_of_new new given⟩

theorem mentioned_of_visitAll {column : Int} {shareLiterals : Bool}
    {instructions : List Instruction}
    (finished : (visitAll column ⟨initial shareLiterals, []⟩ instructions).fault = none) :
    Mentioned (visitAll column ⟨initial shareLiterals, []⟩ instructions).numbering := by
  have start : Mentioned ⟨initial shareLiterals, []⟩ := by
    intro number positive given
    exact absurd given (Int.not_lt.mpr positive)
  exact invariant_of_visitAll (fun _ n => Mentioned n)
    (fun _ _ _ _ mentioned visited => mentioned.visit visited) []
    start finished

end Numbering

end ValueNumbering

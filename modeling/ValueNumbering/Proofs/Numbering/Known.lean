import ValueNumbering.Proofs.Numbering.Symbolic

/-!
The terms that have numbers. Numbers are given out in order, so the list of the terms that they were
given out for says all: a term has the number of the place where one that is the same stands.
-/

namespace ValueNumbering

/-- The term has this number: the place of one that is the same, counted from one. -/
def Numbered (known : List Term) (n : Int) (t : Term) : Prop :=
  ∃ (i : Nat) (u : Term), known[i]? = some u ∧ n = i + 1 ∧ u.Same t

def Distinct (known : List Term) : Prop := known.Pairwise fun t u => ¬ t.Same u

namespace Numbered

variable {known : List Term} {n m : Int} {t u : Term}

theorem append (numbered : Numbered known n t)
    (more : List Term) : Numbered (known ++ more) n t := by
  obtain ⟨i, rep, found, place, same⟩ := numbered
  have inside : i < known.length := (List.getElem?_eq_some_iff.mp found).1
  exact ⟨i, rep, by rw [List.getElem?_append_left inside, found], place, same⟩

theorem last (known : List Term) (t : Term) : Numbered (known ++ [t]) (known.length + 1) t :=
  ⟨known.length, t, by simp, rfl, .refl t⟩

theorem congr (numbered : Numbered known n t) (same : t.Same u) : Numbered known n u := by
  obtain ⟨i, rep, found, place, here⟩ := numbered
  exact ⟨i, rep, found, place, here.trans same⟩

theorem same_term (first : Numbered known n t) (second : Numbered known n u) : t.Same u := by
  obtain ⟨i, rep, found, place, same⟩ := first
  obtain ⟨j, rep', found', place', same'⟩ := second
  have sameIndex : i = j := by omega
  subst sameIndex
  have sameRep : rep = rep' := Option.some.inj (found.symm.trans found')
  exact same.symm.trans (sameRep ▸ same')

theorem same_number (distinct : Distinct known) (first : Numbered known n t)
    (second : Numbered known m u) (same : t.Same u) : n = m := by
  obtain ⟨i, rep, found, place, here⟩ := first
  obtain ⟨j, rep', found', place', here'⟩ := second
  obtain ⟨inside, rfl⟩ := List.getElem?_eq_some_iff.mp found
  obtain ⟨inside', rfl⟩ := List.getElem?_eq_some_iff.mp found'
  have sameRep := here.trans (same.trans here'.symm)
  have apart := List.pairwise_iff_getElem.mp distinct
  rcases Nat.lt_trichotomy i j with less | equal | more
  · exact absurd sameRep (apart i j inside inside' less)
  · omega
  · exact absurd sameRep.symm (apart j i inside' inside more)

theorem exists_mem (numbered : Numbered known n t) : ∃ u ∈ known, u.Same t := by
  obtain ⟨i, rep, found, -, same⟩ := numbered
  exact ⟨rep, List.mem_of_getElem? found, same⟩

end Numbered

theorem Distinct.concat {known : List Term} {t : Term} (distinct : Distinct known)
    (new : ∀ u ∈ known, ¬ u.Same t) : Distinct (known ++ [t]) := by
  refine List.pairwise_append.mpr ⟨distinct, List.pairwise_singleton _ _, ?_⟩
  intro u member last isLast
  rw [List.mem_singleton.mp isLast]
  exact new u member

theorem not_same_of_atom {known : List Term} {t : Term} (new : t ∉ known) (atom : t.IsAtom) :
    ∀ u ∈ known, ¬ u.Same t := by
  intro u member same
  exact new ((Term.same_atom_iff atom).mp same ▸ member)

/-- The table holds a key for every operation that has a number, and nothing else. The operations
computed so far are those of the actions, not of their numbers. -/
structure Tabled (known computed : List Term) (table : Dictionary Expression Int) : Prop where
  entry : ∀ key n, table.find? key = some n → ∃ lhs rhs,
    Numbered known key.lhs lhs ∧ Numbered known key.rhs rhs ∧
      Numbered known n (.operation key.opcode lhs rhs)
  key : ∀ opcode lhs rhs, .operation opcode lhs rhs ∈ known → ∃ left right n,
    Numbered known left lhs ∧ Numbered known right rhs ∧
      table.find? (Expression.canonical opcode left right) = some n
  numbered : ∀ t ∈ computed, ∃ n, Numbered known n t
  computed : ∀ opcode lhs rhs, .operation opcode lhs rhs ∈ known →
    .operation opcode lhs rhs ∈ computed

namespace Tabled

variable {known computed : List Term} {table : Dictionary Expression Int} {opcode : Opcode}
  {left right : Int} {lhs rhs : Term}

theorem empty : Tabled [] [] ∅ where
  entry := by simp
  key := by simp
  numbered := by simp
  computed := by simp

theorem atom (tabled : Tabled known computed table) {t : Term} (atom : t.IsAtom) :
    Tabled (known ++ [t]) computed table where
  entry := by
    intro key n found
    obtain ⟨lhs, rhs, left, right, whole⟩ := tabled.entry key n found
    exact ⟨lhs, rhs, left.append _, right.append _, whole.append _⟩
  key := by
    intro opcode lhs rhs member
    rcases List.mem_append.mp member with old | new
    · obtain ⟨left, right, n, leftNumber, rightNumber, found⟩ := tabled.key opcode lhs rhs old
      exact ⟨left, right, n, leftNumber.append _, rightNumber.append _, found⟩
    · rw [← List.mem_singleton.mp new] at atom
      exact atom.elim
  numbered := by
    intro t member
    obtain ⟨n, numbered⟩ := tabled.numbered t member
    exact ⟨n, numbered.append _⟩
  computed := by
    intro opcode lhs rhs member
    rcases List.mem_append.mp member with old | new
    · exact tabled.computed opcode lhs rhs old
    · rw [← List.mem_singleton.mp new] at atom
      exact atom.elim

theorem hit (tabled : Tabled known computed table) {n : Int} (leftNumber : Numbered known left lhs)
    (rightNumber : Numbered known right rhs)
    (found : table.find? (Expression.canonical opcode left right) = some n) :
    Numbered known n (.operation opcode lhs rhs) := by
  obtain ⟨lhs', rhs', leftEntry, rightEntry, whole⟩ := tabled.entry _ n found
  rcases Expression.canonical_cases opcode left right with straight | ⟨commutes, crossed⟩
  · rw [straight] at leftEntry rightEntry whole
    exact whole.congr (.congr opcode (leftEntry.same_term leftNumber)
      (rightEntry.same_term rightNumber))
  · rw [crossed] at leftEntry rightEntry whole
    have operands := Term.Same.congr opcode (leftEntry.same_term rightNumber)
      (rightEntry.same_term leftNumber)
    exact whole.congr (operands.trans (.swap commutes rhs lhs))

theorem miss (tabled : Tabled known computed table) (distinct : Distinct known)
    (leftNumber : Numbered known left lhs) (rightNumber : Numbered known right rhs)
    (missing : table.find? (Expression.canonical opcode left right) = none) :
    ∀ u ∈ known, ¬ u.Same (.operation opcode lhs rhs) := by
  intro u member same
  obtain ⟨lhs', rhs', rfl, operands⟩ := Term.same_operation_iff.mp same
  obtain ⟨left', right', n, leftNumber', rightNumber', found⟩ := tabled.key opcode lhs' rhs' member
  have sameKey : Expression.canonical opcode left' right' =
      Expression.canonical opcode left right := by
    rcases operands with ⟨straightLeft, straightRight⟩ | ⟨commutes, crossLeft, crossRight⟩
    · rw [leftNumber'.same_number distinct leftNumber straightLeft,
        rightNumber'.same_number distinct rightNumber straightRight]
    · rw [leftNumber'.same_number distinct rightNumber crossLeft,
        rightNumber'.same_number distinct leftNumber crossRight]
      exact Expression.canonical_comm commutes right left
  rw [sameKey, missing] at found
  cases found

/-- A key is in the table when the operation was computed before, with its operands in either
order. -/
theorem computed_iff (tabled : Tabled known computed table) (distinct : Distinct known)
    (opcode : Opcode) (leftNumber : Numbered known left lhs)
    (rightNumber : Numbered known right rhs) :
    (table.find? (Expression.canonical opcode left right)).isSome = true ↔
      ∃ t ∈ computed, t.Same (.operation opcode lhs rhs) := by
  constructor
  · intro present
    obtain ⟨n, found⟩ := Option.isSome_iff_exists.mp present
    obtain ⟨u, member, same⟩ := (tabled.hit leftNumber rightNumber found).exists_mem
    obtain ⟨lhs', rhs', rfl, -⟩ := Term.same_operation_iff.mp same
    exact ⟨_, tabled.computed opcode lhs' rhs' member, same⟩
  · rintro ⟨t, member, same⟩
    obtain ⟨n, numbered⟩ := tabled.numbered t member
    obtain ⟨u, inside, here⟩ := numbered.exists_mem
    cases found : table.find? (Expression.canonical opcode left right) with
    | some n => rfl
    | none =>
      exact absurd (here.trans same) (tabled.miss distinct leftNumber rightNumber found u inside)

theorem again (tabled : Tabled known computed table) {n : Int}
    (whole : Numbered known n (.operation opcode lhs rhs)) :
    Tabled known (computed ++ [.operation opcode lhs rhs]) table where
  entry := tabled.entry
  key := tabled.key
  numbered := by
    intro t member
    rcases List.mem_append.mp member with old | new
    · exact tabled.numbered t old
    · exact ⟨n, List.mem_singleton.mp new ▸ whole⟩
  computed := by
    intro opcode' lhs' rhs' member
    exact List.mem_append_left _ (tabled.computed opcode' lhs' rhs' member)

theorem record (tabled : Tabled known computed table) (leftNumber : Numbered known left lhs)
    (rightNumber : Numbered known right rhs)
    (missing : table.find? (Expression.canonical opcode left right) = none) :
    Tabled (known ++ [.operation opcode lhs rhs]) (computed ++ [.operation opcode lhs rhs])
      (table.insert (Expression.canonical opcode left right) (known.length + 1)) where
  entry := by
    intro key n found
    rw [Dictionary.find?_insert] at found
    split at found
    · next here =>
        subst here
        cases found
        have whole := Numbered.last known (.operation opcode lhs rhs)
        rcases Expression.canonical_cases opcode left right with straight | ⟨commutes, crossed⟩
        · rw [straight]
          exact ⟨lhs, rhs, leftNumber.append _, rightNumber.append _, whole⟩
        · rw [crossed]
          exact ⟨rhs, lhs, rightNumber.append _, leftNumber.append _,
            whole.congr (.swap commutes lhs rhs)⟩
    · obtain ⟨lhs', rhs', left', right', whole⟩ := tabled.entry key n found
      exact ⟨lhs', rhs', left'.append _, right'.append _, whole.append _⟩
  key := by
    intro opcode' lhs' rhs' member
    rcases List.mem_append.mp member with old | new
    · obtain ⟨left', right', n, leftNumber', rightNumber', found⟩ :=
        tabled.key opcode' lhs' rhs' old
      refine ⟨left', right', n, leftNumber'.append _, rightNumber'.append _, ?_⟩
      have other : Expression.canonical opcode left right ≠
          Expression.canonical opcode' left' right' := by
        intro sameKey
        rw [← sameKey, missing] at found
        cases found
      rw [Dictionary.find?_insert_of_ne _ _ other, found]
    · cases List.mem_singleton.mp new
      exact ⟨left, right, _, leftNumber.append _, rightNumber.append _,
        Dictionary.find?_insert_self _ _ _⟩
  numbered := by
    intro t member
    rcases List.mem_append.mp member with old | new
    · obtain ⟨n, numbered⟩ := tabled.numbered t old
      exact ⟨n, numbered.append _⟩
    · cases List.mem_singleton.mp new
      exact ⟨_, Numbered.last known _⟩
  computed := by
    intro opcode' lhs' rhs' member
    rcases List.mem_append.mp member with old | new
    · exact List.mem_append_left _ (tabled.computed opcode' lhs' rhs' old)
    · exact List.mem_append_right _ new

end Tabled

end ValueNumbering

import ValueNumbering.Proofs.Numbering.Known
import Mathlib.Data.List.Forall2

/-!
Numbering and symbolic execution side by side. The maps of the store stay a bijection between
numbers and terms: every entry has the number of the term that it stands for, and what has no entry
has a term without a number.
-/

namespace ValueNumbering

/-- The maps of a store and a table agree with the bindings, the cells and the terms computed so
far. -/
structure Represents (known computed : List Term) (s : Symbolic) (store : Store)
    (table : Dictionary Expression Int) :
    Prop where
  share : s.shareLiterals = store.shareLiterals
  next : store.next = known.length + 1
  distinct : Distinct known
  value : ∀ v n, store.values.find? v = some n → Numbered known n (s.bound v)
  newValue : ∀ v, store.values.find? v = none → s.bindings.find? v = none ∧ .unbound v ∉ known
  literal : ∀ c n, store.literals.find? c = some n → Numbered known n (.literal c)
  newLiteral : ∀ c, store.literals.find? c = none → .literal c ∉ known
  cell : ∀ p, Option.Rel (Numbered known) (store.pointers.find? p) (s.cells.find? p)
  loads : ∀ i, .loaded i ∈ known → i < s.position
  tabled : Tabled known computed table

theorem numbered_rel_append {known : List Term} {n : Option Int} {t : Option Term}
    (related : Option.Rel (Numbered known) n t) (more : List Term) :
    Option.Rel (Numbered (known ++ more)) n t := by
  cases related with
  | some numbered => exact .some (numbered.append more)
  | none => exact .none

/-- The numbers of a decision are those of the terms of its meaning. -/
def Meets (known : List Term) (d : Decision) (m : Meaning) : Prop :=
  List.Forall₂ (Option.Rel (Numbered known)) d.numbers m.terms

theorem Meets.append {known : List Term} {d : Decision} {m : Meaning} (meets : Meets known d m)
    (more : List Term) :
    Meets (known ++ more) d m :=
  meets.imp fun _ _ related => numbered_rel_append related more

namespace Represents

variable {known computed computed' : List Term} {s : Symbolic} {store : Store}
  {table table' : Dictionary Expression Int}

theorem start (shareLiterals : Bool) :
    Represents [] [] { shareLiterals := shareLiterals } { shareLiterals := shareLiterals } ∅ where
  share := rfl
  next := rfl
  distinct := List.Pairwise.nil
  value := by simp
  newValue := by simp
  literal := by simp
  newLiteral := by simp
  cell := fun _ => .none
  loads := by simp
  tabled := .empty

theorem numberOf (rep : Represents known computed s store table) (v : Value) :
    ∃ more, Represents (known ++ more) computed s (store.numberOf v).2 table ∧
      Numbered (known ++ more) (store.numberOf v).1 (s.bound v) := by
  unfold Store.numberOf
  split
  · next number found =>
      refine ⟨[], ?_⟩
      rw [List.append_nil]
      exact ⟨rep, rep.value v number found⟩
  · next missing =>
      obtain ⟨unbound, unknown⟩ := rep.newValue v missing
      have itself : s.bound v = .unbound v := by simp [Symbolic.bound, unbound]
      have nextNumber := rep.next
      refine ⟨[.unbound v], ⟨rep.share, ?_, ?_, ?_, ?_, ?_, ?_, ?_, ?_, ?_⟩, ?_⟩
      · simp only [List.length_append, List.length_singleton]
        omega
      · exact rep.distinct.concat (not_same_of_atom unknown trivial)
      · intro w n found
        rw [Dictionary.find?_insert] at found
        split at found
        · next here =>
            subst here
            cases found
            rw [itself, nextNumber]
            exact Numbered.last known _
        · exact (rep.value w n found).append _
      · intro w absent
        rw [Dictionary.find?_insert] at absent
        split at absent
        · cases absent
        · next other =>
            obtain ⟨free, new⟩ := rep.newValue w absent
            refine ⟨free, ?_⟩
            simp only [List.mem_append, List.mem_singleton, Term.unbound.injEq, not_or]
            exact ⟨new, fun same => other same.symm⟩
      · intro c n found
        exact (rep.literal c n found).append _
      · intro c absent
        simpa using rep.newLiteral c absent
      · intro p
        exact numbered_rel_append (rep.cell p) _
      · intro i member
        exact rep.loads i (by simpa using member)
      · exact rep.tabled.atom trivial
      · rw [itself, nextNumber]
        exact Numbered.last known _

theorem numberOfLiteral (rep : Represents known computed s store table) (c : Int) :
    ∃ more, Represents (known ++ more) computed s (store.numberOfLiteral c).2 table ∧
      Numbered (known ++ more) (store.numberOfLiteral c).1 (.literal c) := by
  unfold Store.numberOfLiteral
  split
  · next number found =>
      refine ⟨[], ?_⟩
      rw [List.append_nil]
      exact ⟨rep, rep.literal c number found⟩
  · next missing =>
      have nextNumber := rep.next
      refine ⟨[.literal c], ⟨rep.share, ?_, ?_, ?_, ?_, ?_, ?_, ?_, ?_, ?_⟩, ?_⟩
      · simp only [List.length_append, List.length_singleton]
        omega
      · exact rep.distinct.concat (not_same_of_atom (rep.newLiteral c missing) trivial)
      · intro w n found
        exact (rep.value w n found).append _
      · intro w absent
        obtain ⟨free, new⟩ := rep.newValue w absent
        exact ⟨free, by simpa using new⟩
      · intro c' n found
        rw [Dictionary.find?_insert] at found
        split at found
        · next here =>
            subst here
            cases found
            rw [nextNumber]
            exact Numbered.last known _
        · exact (rep.literal c' n found).append _
      · intro c' absent
        rw [Dictionary.find?_insert] at absent
        split at absent
        · cases absent
        · next other =>
            simp only [List.mem_append, List.mem_singleton, Term.literal.injEq, not_or]
            exact ⟨rep.newLiteral c' absent, fun same => other same.symm⟩
      · intro p
        exact numbered_rel_append (rep.cell p) _
      · intro i member
        exact rep.loads i (by simpa using member)
      · exact rep.tabled.atom trivial
      · rw [nextNumber]
        exact Numbered.last known _

theorem resolve (rep : Represents known computed s store table) (v : Value) :
    ∃ more, Represents (known ++ more) computed s (store.resolve v).2 table ∧
      Numbered (known ++ more) (store.resolve v).1 (s.term v) := by
  have sameMode := rep.share
  unfold Store.resolve Symbolic.term
  rw [sameMode]
  cases store.shareLiterals with
  | false => exact rep.numberOf v
  | true =>
      cases v.literal? with
      | none => exact rep.numberOf v
      | some c => exact rep.numberOfLiteral c

theorem assign (rep : Represents known computed s store table) {n : Int} {t : Term}
    (numbered : Numbered known n t) (tabled : Tabled known computed' table) (result : Value) :
    Represents known computed' (s.bind result t).advance (store.assign result n) table where
  share := rep.share
  next := rep.next
  distinct := rep.distinct
  value := by
    intro w m found
    simp only [Store.assign, Dictionary.find?_insert] at found
    rw [Symbolic.bound_advance, Symbolic.bound_bind]
    split at found
    · next here =>
        cases found
        rwa [if_pos here]
    · next other =>
        rw [if_neg other]
        exact rep.value w m found
  newValue := by
    intro w absent
    simp only [Store.assign, Dictionary.find?_insert] at absent
    simp only [Symbolic.bind, Symbolic.advance, Dictionary.find?_insert]
    split at absent
    · cases absent
    · next other => simpa [other] using rep.newValue w absent
  literal := rep.literal
  newLiteral := rep.newLiteral
  cell := rep.cell
  loads := fun i member => Nat.lt_succ_of_lt (rep.loads i member)
  tabled := tabled

theorem fresh (rep : Represents known computed s store table) {t : Term}
    (new : ∀ u ∈ known, ¬ u.Same t)
    (shape : t = .loaded s.position ∨ ∃ opcode lhs rhs, t = .operation opcode lhs rhs)
    (tabled : Tabled (known ++ [t]) computed' table') (result : Value) :
    Represents (known ++ [t]) computed' (s.bind result t).advance
      (store.fresh result).2 table' where
  share := rep.share
  next := by
    have nextNumber := rep.next
    simp only [Store.fresh, List.length_append, List.length_singleton]
    omega
  distinct := rep.distinct.concat new
  value := by
    intro w m found
    simp only [Store.fresh, Dictionary.find?_insert] at found
    rw [Symbolic.bound_advance, Symbolic.bound_bind]
    split at found
    · next here =>
        cases found
        rw [if_pos here, rep.next]
        exact Numbered.last known t
    · next other =>
        rw [if_neg other]
        exact (rep.value w m found).append [t]
  newValue := by
    intro w absent
    simp only [Store.fresh, Dictionary.find?_insert] at absent
    simp only [Symbolic.bind, Symbolic.advance, Dictionary.find?_insert]
    split at absent
    · cases absent
    · next other =>
        obtain ⟨free, unknown⟩ := rep.newValue w absent
        refine ⟨by simpa [other] using free, ?_⟩
        rcases shape with rfl | ⟨opcode, lhs, rhs, rfl⟩ <;> simpa using unknown
  literal := fun c n found => (rep.literal c n found).append [t]
  newLiteral := by
    intro c absent
    rcases shape with rfl | ⟨opcode, lhs, rhs, rfl⟩ <;> simpa using rep.newLiteral c absent
  cell := fun p => numbered_rel_append (rep.cell p) [t]
  loads := by
    intro i member
    show i < s.position + 1
    rcases List.mem_append.mp member with old | last
    · exact Nat.lt_succ_of_lt (rep.loads i old)
    · rcases shape with rfl | ⟨opcode, lhs, rhs, rfl⟩
      · cases List.mem_singleton.mp last
        exact Nat.lt_succ_self _
      · cases List.mem_singleton.mp last
  tabled := tabled

theorem write (rep : Represents known computed s store table) {n : Int} {t : Term}
    (numbered : Numbered known n t) (pointer : Value) :
    Represents known computed (s.write pointer t).advance (store.recordPointer pointer n)
      table where
  share := rep.share
  next := rep.next
  distinct := rep.distinct
  value := rep.value
  newValue := rep.newValue
  literal := rep.literal
  newLiteral := rep.newLiteral
  cell := by
    intro p
    simp only [Store.recordPointer, Symbolic.write, Symbolic.advance, Dictionary.find?_insert]
    split
    · exact .some numbered
    · exact rep.cell p
  loads := fun i member => Nat.lt_succ_of_lt (rep.loads i member)
  tabled := rep.tabled

end Represents

end ValueNumbering

import Mathlib.Data.List.Forall2
import Mathlib.Data.List.TakeDrop
import Mathlib.Data.List.TakeWhile

/-! Lists at their last element, cut at a predicate, related one by one, and the elements of a list
that have one key. -/

namespace ValueNumbering

theorem getElem?_concat_cases {α : Type} {xs : List α} {x y : α} {i : Nat}
    (found : (xs ++ [x])[i]? = some y) : xs[i]? = some y ∨ i = xs.length ∧ y = x := by
  rcases Nat.lt_trichotomy i xs.length with less | equal | more
  · rw [List.getElem?_append_left less] at found
    exact Or.inl found
  · subst equal
    rw [List.getElem?_concat_length] at found
    exact Or.inr ⟨rfl, (Option.some.inj found).symm⟩
  · have outside : (xs ++ [x])[i]? = none := List.getElem?_eq_none (by simp; omega)
    simp [outside] at found

theorem getElem?_of_mem_take {α : Type} {xs : List α} {x : α} {i : Nat} (member : x ∈ xs.take i) :
    ∃ j < i, xs[j]? = some x := by
  obtain ⟨j, found⟩ := List.mem_iff_getElem?.mp member
  rw [List.getElem?_take] at found
  split at found
  · next less => exact ⟨j, less, found⟩
  · cases found

theorem span_append {α : Type} {p : α → Bool} {front rest : List α}
    (passes : ∀ x ∈ front, p x = true) (stops : ∀ x, rest.head? = some x → p x = false) :
    (front ++ rest).span p = (front, rest) := by
  rw [List.span_eq_takeWhile_dropWhile, List.takeWhile_append_of_pos passes,
    List.dropWhile_append_of_pos passes]
  cases rest with
  | nil => simp
  | cons x more => simp [stops x rfl]

theorem span_append_stops {α : Type} {p : α → Bool} {rest : List α}
    (stops : ∀ x, rest.head? = some x → p x = false) (xs : List α) :
    (xs ++ rest).span p = ((xs.span p).1, (xs.span p).2 ++ rest) := by
  have passes : ∀ x ∈ xs.takeWhile p, p x = true := fun x member => List.mem_takeWhile_imp member
  have stops' : ∀ x, (xs.dropWhile p ++ rest).head? = some x → p x = false := by
    intro x first
    cases left : xs.dropWhile p with
    | nil => exact stops x (by rwa [left] at first)
    | cons y more =>
        have notPassed := List.head_dropWhile_not p (l := xs)
          (by rw [left]; exact List.cons_ne_nil _ _)
        rw [left] at first
        cases first
        simpa [left] using notPassed
  have cut := span_append passes stops'
  rw [← List.append_assoc, List.takeWhile_append_dropWhile] at cut
  rw [cut, List.span_eq_takeWhile_dropWhile]

theorem forall_split_iff {α : Type} {xs : List α} {P : List α → α → Prop} :
    (∀ before x after, xs = before ++ x :: after → P before x) ↔ ∀ i :
    Fin xs.length, P (xs.take i) (xs.get i) := by
  constructor
  · intro all i
    exact all _ _ (xs.drop (i + 1)) (by simp)
  · rintro all before x after rfl
    have here := all ⟨before.length, by simp⟩
    simpa using here

theorem exists_of_mem_right {α β : Type} {R : α → β → Prop} {xs : List α} {ys : List β}
    (related : List.Forall₂ R xs ys) {y : β} (member : y ∈ ys) : ∃ x ∈ xs, R x y := by
  induction related with
  | nil => cases member
  | @cons x z xs ys here rest ih =>
      rcases List.mem_cons.mp member with rfl | later
      · exact ⟨x, List.mem_cons_self .., here⟩
      · obtain ⟨other, inside, holds⟩ := ih later
        exact ⟨other, List.mem_cons_of_mem _ inside, holds⟩

theorem forall₂_singleton {α β : Type} {R : α → β → Prop} {x : α} {ys : List β}
    (related : List.Forall₂ R [x] ys) :
    ∃ y, ys = [y] ∧ R x y := by
  obtain ⟨y, rest, here, more, rfl⟩ := List.forall₂_cons_left_iff.mp related
  rw [List.forall₂_nil_left_iff.mp more]
  exact ⟨y, rfl, here⟩

theorem forall₂_pair {α β : Type} {R : α → β → Prop} {x x' : α} {ys : List β}
    (related : List.Forall₂ R [x, x'] ys) :
    ∃ y y', ys = [y, y'] ∧ R x y ∧ R x' y' := by
  obtain ⟨y, rest, here, more, rfl⟩ := List.forall₂_cons_left_iff.mp related
  obtain ⟨y', rfl, there⟩ := forall₂_singleton more
  exact ⟨y, y', rfl, here, there⟩

theorem forall₂_getElem? {α β : Type} {R : α → β → Prop} {xs : List α} {ys : List β}
    (related : List.Forall₂ R xs ys) {i : Nat} {x : α} {y : β} (isLeft : xs[i]? = some x)
    (isRight : ys[i]? = some y) : R x y := by
  obtain ⟨inside, rfl⟩ := List.getElem?_eq_some_iff.mp isLeft
  obtain ⟨inside', rfl⟩ := List.getElem?_eq_some_iff.mp isRight
  exact related.get inside inside'

theorem map_eq_map_of_getElem? {α β γ : Type} {f : α → γ} {g : β → γ} {xs : List α} {ys : List β}
    (length : xs.length = ys.length)
    (same : ∀ (i : Nat) (x : α) (y : β), xs[i]? = some x → ys[i]? = some y → f x = g y) :
    xs.map f = ys.map g := by
  refine List.ext_getElem (by simpa using length) fun i inside inside' => ?_
  rw [List.getElem_map, List.getElem_map]
  rw [List.length_map] at inside inside'
  exact same i _ _ (by simp [inside]) (by simp [inside'])

theorem mapM_congr_of_forall₂ {ε α β γ : Type} {f : α → Except ε γ} {g : β → Except ε γ}
    {xs : List α} {ys : List β} (same : List.Forall₂ (fun x y => f x = g y) xs ys) :
    xs.mapM f = ys.mapM g := by
  induction same with
  | nil => rfl
  | cons here rest ih => rw [List.mapM_cons, List.mapM_cons, here, ih]

theorem mapM_ok {ε α β : Type} {f : α → Except ε β} {xs : List α} {ys : List β}
    (each : xs.map f = ys.map .ok) :
    xs.mapM f = .ok ys := by
  induction xs generalizing ys with
  | nil =>
      obtain rfl := List.map_eq_nil_iff.mp each.symm
      rfl
  | cons x rest ih =>
      obtain ⟨y, more, rfl, here, others⟩ := List.map_eq_cons_iff.mp each.symm
      rw [List.mapM_cons, ← here, ih others.symm]
      rfl

theorem exists_mapM {ε α β : Type} {f : α → Except ε β} {xs : List α}
    (each : ∀ x ∈ xs, ∃ y, f x = .ok y) :
    ∃ ys, xs.mapM f = .ok ys := by
  induction xs with
  | nil => exact ⟨[], rfl⟩
  | cons x rest ih =>
      obtain ⟨⟨y, here⟩, later⟩ := List.forall_mem_cons.mp each
      obtain ⟨ys, others⟩ := ih later
      exact ⟨y :: ys, by rw [List.mapM_cons, here, others]; rfl⟩

section Filter

variable {α β : Type} [DecidableEq β] {xs : List α} {f : α → Option β} {y : β}

theorem filter_eq_nil_of_not_mem (absent : y ∉ xs.filterMap f) : xs.filter (f · = some y) = [] := by
  apply List.filter_eq_nil_iff.mpr
  intro x member same
  have here : f x = some y := of_decide_eq_true same
  exact absent (List.mem_filterMap.mpr ⟨x, member, here⟩)

/-- Where no key comes twice, one element has a key. -/
theorem filter_eq_singleton (distinct : (xs.filterMap f).Nodup) {x : α} (member : x ∈ xs)
    (here : f x = some y) :
    xs.filter (f · = some y) = [x] := by
  induction xs with
  | nil => cases member
  | cons z rest ih =>
      rcases List.mem_cons.mp member with rfl | later
      · rw [List.filterMap_cons_some here, List.nodup_cons] at distinct
        rw [List.filter_cons_of_pos (by simp [here]), filter_eq_nil_of_not_mem distinct.1]
      · cases there : f z with
        | none =>
            rw [List.filterMap_cons_none there] at distinct
            rw [List.filter_cons_of_neg (by simp [there])]
            exact ih distinct later
        | some w =>
            rw [List.filterMap_cons_some there, List.nodup_cons] at distinct
            have different : w ≠ y := by
              rintro rfl
              exact distinct.1 (List.mem_filterMap.mpr ⟨x, later, here⟩)
            rw [List.filter_cons_of_neg (by simp [there, different])]
            exact ih distinct.2 later

theorem eq_of_key (distinct : (xs.filterMap f).Nodup) {x x' : α} (member : x ∈ xs)
    (member' : x' ∈ xs) (here : f x = some y) (here' : f x' = some y) : x = x' := by
  have only := (filter_eq_singleton distinct member here).symm.trans
    (filter_eq_singleton distinct member' here')
  exact (List.cons.inj only).1

end Filter

end ValueNumbering

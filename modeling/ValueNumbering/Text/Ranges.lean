/-! Sets of characters given by ranges of code points, the form of the property tables. -/

namespace ValueNumbering.Text

abbrev Ranges := List (Nat × Nat)

def Ranges.contains (ranges : Ranges) (code : Nat) : Bool :=
  ranges.any fun range => range.1 ≤ code && code ≤ range.2

def Ranges.offset? (ranges : Ranges) (code : Nat) : Option Nat :=
  (ranges.find? fun range => range.1 ≤ code && code ≤ range.2).map (code - ·.1)

theorem Ranges.contains_iff (ranges : Ranges) (code : Nat) :
    ranges.contains code = true ↔ ∃ range ∈ ranges, range.1 ≤ code ∧ code ≤ range.2 := by
  simp [Ranges.contains]

theorem Ranges.offset?_isSome (ranges : Ranges) (code : Nat) :
    (ranges.offset? code).isSome = ranges.contains code := by
  induction ranges with
  | nil => rfl
  | cons range ranges ih =>
      by_cases held : (range.1 ≤ code && code ≤ range.2) = true
      · simp [Ranges.offset?, Ranges.contains, held]
      · simp only [Ranges.offset?, Ranges.contains, Option.isSome_map] at ih ⊢
        simp [held, ih]

end ValueNumbering.Text

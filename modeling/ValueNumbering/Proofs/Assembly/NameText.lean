import Mathlib.Data.List.TakeWhile
import ValueNumbering.Assembly.Name
import ValueNumbering.Proofs.Lists
import ValueNumbering.Proofs.Text.Integer
import ValueNumbering.Proofs.Text.Trimming

/-! Names as text: a name is cut off where it ends, and what is cut off as a name is one. -/

namespace ValueNumbering.Assembly

open Text

/-- The blanks above ASCII. -/
def wideBlanks : List Nat :=
  [0x85, 0xA0, 0x1680] ++ (List.range 11).map (0x2000 + ·) ++
    [0x2028, 0x2029, 0x202F, 0x205F, 0x3000]

theorem mem_wideBlanks {c : Char} (wide : 0x80 ≤ c.toNat) (blank : isBlank c = true) :
    c.toNat ∈ wideBlanks := by
  have narrow : ¬ c.toNat < 0x80 := by omega
  simp only [isBlank, narrow, if_false, Ranges.contains_iff, List.mem_cons, List.not_mem_nil,
    or_false] at blank
  obtain ⟨range, isRange, lower, upper⟩ := blank
  simp only [wideBlanks, List.mem_append, List.mem_map, List.mem_range, List.mem_cons,
    List.not_mem_nil, or_false]
  rcases isRange with rfl | rfl | rfl | rfl | rfl | rfl | rfl | rfl <;> simp only at lower upper
  all_goals first | omega | exact Or.inl (Or.inr ⟨c.toNat - 0x2000, by omega, by omega⟩)

theorem isBlank_of_isNameChar {c : Char} (inName : isNameChar c = true) : isBlank c = false := by
  apply Bool.eq_false_iff.mpr
  intro blank
  by_cases narrow : c.toNat < 0x80
  · have apart : ∀ n < 0x80, isNameChar (Char.ofNat n) = true → isBlank (Char.ofNat n) = false := by
      decide +kernel
    have solid := apart c.toNat narrow (by rwa [Char.ofNat_toNat])
    rw [Char.ofNat_toNat, blank] at solid
    cases solid
  · have apart : ∀ n ∈ wideBlanks, alphanumericRanges.contains n = false := by decide +kernel
    have notWord := apart c.toNat (mem_wideBlanks (by omega) blank)
    simp only [isNameChar, isWord, narrow, if_false, notWord, Bool.false_or, Bool.or_eq_true,
      beq_iff_eq] at inName
    rcases inName with (rfl | rfl) | rfl
    all_goals exact narrow (by decide)

theorem ne_of_isNameChar {c d : Char} (inName : isNameChar c = true)
    (outside : isNameChar d = false) : c ≠ d := by
  rintro rfl
  rw [inName] at outside
  cases outside

structure IsName (text : List Char) : Prop where
  nonempty : text ≠ []
  within : ∀ c ∈ text, isNameChar c = true

namespace IsName

variable {text : List Char}

theorem of_all (nonempty : text ≠ []) (all : text.all isNameChar = true) : IsName text :=
  ⟨nonempty, List.all_eq_true.mp all⟩

theorem solid (name : IsName text) : Solid text :=
  fun c member => isBlank_of_isNameChar (name.within c member)

theorem name?_append (name : IsName text) {rest : List Char}
    (stops : ∀ c, rest.head? = some c → isNameChar c = false) :
    name? (text ++ rest) = some (text, rest) := by
  unfold name?
  rw [span_append name.within stops]
  obtain ⟨c, more, rfl⟩ := List.exists_cons_of_ne_nil name.nonempty
  rfl

end IsName

instance (text : List Char) : Decidable (IsName text) :=
  decidable_of_iff (text ≠ [] ∧ text.all isNameChar = true)
    ⟨fun both => .of_all both.1 both.2, fun name =>
      ⟨name.nonempty, List.all_eq_true.mpr name.within⟩⟩

theorem isNameChar_of_isDigit {c : Char} (digit : c.isDigit = true) : isNameChar c = true := by
  have upper := (Char.isDigit_iff_toNat.mp digit).2
  have nine : '9'.toNat = 57 := rfl
  have narrow : c.toNat < 0x80 := by omega
  simp [isNameChar, isWord, narrow, Char.isAlphanum, digit]

theorem isName_of_allDigits {text : List Char} (digits : Integer.AllDigits text)
    (nonempty : text ≠ []) : IsName text :=
  ⟨nonempty, fun c member => isNameChar_of_isDigit (digits c member)⟩

/-- What is cut off as a name is one, and the text goes on where the name ends. -/
theorem name?_sound {text name rest : List Char} (found : name? text = some (name, rest)) :
    IsName name ∧ text = name ++ rest := by
  have whole := List.span_eq_takeWhile_dropWhile isNameChar text
  unfold name? at found
  split at found
  · cases found
  · next nonempty =>
      have cut := Option.some.inj found
      rw [whole] at cut
      obtain ⟨rfl, rfl⟩ := Prod.mk.inj cut
      refine ⟨⟨?_, fun c member => List.mem_takeWhile_imp member⟩,
        (List.takeWhile_append_dropWhile ..).symm⟩
      intro empty
      exact nonempty _ (by rw [whole, empty])

end ValueNumbering.Assembly

import Mathlib.Tactic.Ring
import ValueNumbering.Text.Integer

/-! Integers written in digits and read back. -/

namespace ValueNumbering.Text.Integer

/-- Ten digits and no others. -/
def AllDigits (text : List Char) : Prop := ∀ c ∈ text, c.isDigit = true

theorem digitValue?_of_isDigit {c : Char} (digit : c.isDigit = true) :
    digitValue? c = some (c.toNat - '0'.toNat) := by
  have upper := (Char.isDigit_iff_toNat.mp digit).2
  have nine : '9'.toNat = 57 := rfl
  have narrow : c.toNat < 0x80 := by omega
  rw [digitValue?, if_pos narrow, if_pos digit]

theorem isDecimal_of_isDigit {c : Char} (digit : c.isDigit = true) : isDecimal c = true := by
  rw [isDecimal, digitValue?_of_isDigit digit]
  rfl

theorem decimalValue_eq {text : List Char} (digits : AllDigits text) (start : Nat) :
    decimalValue start text = Nat.ofDigitChars 10 text start := by
  induction text generalizing start with
  | nil => rw [decimalValue, Nat.ofDigitChars_nil]
  | cons c rest ih =>
      rw [decimalValue, Nat.ofDigitChars_cons,
        digitValue?_of_isDigit (digits c (List.mem_cons_self ..))]
      exact ih (fun d member => digits d (List.mem_cons_of_mem _ member)) _

/-- Digits of any script and no other characters. -/
def Decimals (text : List Char) : Prop := ∀ c ∈ text, isDecimal c = true

-- of all characters only those of the text are looked at
instance (text : List Char) : Decidable (Decimals text) :=
  List.decidableBAll (fun c => isDecimal c = true) text

theorem AllDigits.decimals {text : List Char} (digits : AllDigits text) : Decimals text :=
  fun c member => isDecimal_of_isDigit (digits c member)

theorem isBlank_of_isDecimal {c : Char} (decimal : isDecimal c = true) : isBlank c = false := by
  unfold isDecimal digitValue? at decimal
  split at decimal
  · next narrow =>
      split at decimal
      · next digit =>
          have bounds := Char.isDigit_iff_toNat.mp digit
          have digits : '0'.toNat = 48 ∧ '9'.toNat = 57 := ⟨rfl, rfl⟩
          rw [isBlank, if_pos narrow]
          simp
          omega
      · cases decimal
  · next wide =>
      rw [Option.isSome_map, Ranges.offset?_isSome, Ranges.contains_iff] at decimal
      obtain ⟨range, member, low, high⟩ := decimal
      -- No range of digits meets one of blanks.
      have apart : ∀ digits ∈ decimalRanges,
          ∀ blanks ∈ ([(0x85, 0x85), (0xA0, 0xA0), (0x1680, 0x1680), (0x2000, 0x200A),
          (0x2028, 0x2029), (0x202F, 0x202F), (0x205F, 0x205F), (0x3000, 0x3000)] : Ranges),
          digits.2 < blanks.1 ∨ blanks.2 < digits.1 := by decide
      rw [isBlank, if_neg wide, Bool.eq_false_iff, ne_eq, Ranges.contains_iff]
      rintro ⟨blanks, isBlanks, low', high'⟩
      have := apart range member blanks isBlanks
      omega

theorem decimalValue_lt (start : Nat) (text : List Char) :
    decimalValue start text < (start + 1) * Nat.pow 10 text.length := by
  induction text generalizing start with
  | nil => simp [decimalValue]
  | cons c rest ih =>
      have small : (digitValue? c).getD 0 < 10 := by
        cases value : digitValue? c with
        | none => decide
        | some n => exact digitValue?_lt value
      have place : Nat.pow 10 (c :: rest).length = Nat.pow 10 rest.length * 10 := rfl
      calc
        _ < (10 * start + (digitValue? c).getD 0 + 1) * Nat.pow 10 rest.length := ih _
        _ ≤ (10 * (start + 1)) * Nat.pow 10 rest.length := Nat.mul_le_mul_right _ (by omega)
        _ = (start + 1) * Nat.pow 10 (c :: rest).length := by rw [place]; ring

theorem digitRun_of_decimals {text : List Char} (decimals : Decimals text) (afterDigit : Bool)
    (nonempty : afterDigit = true ∨ text ≠ []) : digitRun afterDigit text = some (text, []) := by
  induction text generalizing afterDigit with
  | nil => simp_all [digitRun]
  | cons c rest ih =>
      have here := decimals c (List.mem_cons_self ..)
      rw [digitRun, if_pos here, ih (fun d member => decimals d (List.mem_cons_of_mem _ member))
        true (Or.inl rfl)]
      rfl

theorem allDigits_repr (n : Nat) : AllDigits n.repr.toList := by
  intro c member
  rw [Nat.toList_repr] at member
  exact Nat.isDigit_of_mem_toDigits (by decide) (by decide) member

theorem toString_ofNat (n : Nat) : (toString (n : Int)).toList = n.repr.toList := rfl

theorem toString_negSucc (n : Nat) :
    (toString (Int.negSucc n)).toList = '-' :: (n + 1).repr.toList := by
  have whole : toString (Int.negSucc n) = "-" ++ (n + 1).repr := rfl
  rw [whole, String.toList_append]
  rfl

theorem repr_ne_nil (n : Nat) : n.repr.toList ≠ [] := by
  rw [Nat.toList_repr]
  exact Nat.toDigits_ne_nil

theorem length_repr_le_iff {n k : Nat} (positive : 0 < k) :
    n.repr.toList.length ≤ k ↔ n < Nat.pow 10 k := by
  rw [Nat.toList_repr]
  exact Nat.length_toDigits_le_iff (by decide) positive

theorem sign_of_decimals {text : List Char} (decimals : Decimals text) :
    sign (text.dropWhile isPadding) = (false, text) := by
  cases text with
  | nil => rfl
  | cons c rest =>
      have decimal := decimals c (List.mem_cons_self ..)
      have notPadding : isPadding c = false := by simp [isPadding, isBlank_of_isDecimal decimal]
      have notMinus : c ≠ '-' := by
        rintro rfl
        revert decimal
        decide
      have notPlus : c ≠ '+' := by
        rintro rfl
        revert decimal
        decide
      rw [List.dropWhile_cons_of_neg (by simp [notPadding])]
      unfold sign
      split
      · next same => exact absurd (List.cons.inj same).1 notMinus
      · next same => exact absurd (List.cons.inj same).1 notPlus
      · rfl

theorem read_of_decimals {text : List Char} (decimals : Decimals text) (nonempty : text ≠ [])
    (short : text.length ≤ digitLimit) : read text = .ok (decimalValue 0 text) := by
  have run := digitRun_of_decimals decimals false (Or.inr nonempty)
  unfold read
  simp only [sign_of_decimals decimals, run, Nat.not_lt.mpr short, if_false, List.all_nil,
    if_true, signed]
  rfl

theorem read_minus_of_decimals {text : List Char} (decimals : Decimals text) (nonempty : text ≠ [])
    (short : text.length ≤ digitLimit) :
    read ('-' :: text) = .ok (-(decimalValue 0 text : Nat)) := by
  have run := digitRun_of_decimals decimals false (Or.inr nonempty)
  have notPadding : isPadding '-' = false := by decide
  unfold read
  simp only [List.dropWhile_cons, notPadding, Bool.false_eq_true, if_false, sign, run,
    Nat.not_lt.mpr short, List.all_nil, if_true, signed]

theorem read_of_allDigits {text : List Char} (digits : AllDigits text) (nonempty : text ≠ [])
    (short : text.length ≤ digitLimit) : read text = .ok (Nat.ofDigitChars 10 text 0) := by
  rw [read_of_decimals digits.decimals nonempty short, decimalValue_eq digits]

theorem read_minus_of_allDigits {text : List Char} (digits : AllDigits text) (nonempty : text ≠ [])
    (short : text.length ≤ digitLimit) :
    read ('-' :: text) = .ok (-(Nat.ofDigitChars 10 text 0 : Nat)) := by
  rw [read_minus_of_decimals digits.decimals nonempty short, decimalValue_eq digits]

theorem ofDigitChars_repr (n : Nat) : Nat.ofDigitChars 10 n.repr.toList 0 = n := by
  rw [Nat.toList_repr, Nat.ofDigitChars_ten_toDigits]

theorem repr_inj {m n : Nat} (same : m.repr.toList = n.repr.toList) : m = n := by
  rw [← ofDigitChars_repr m, same, ofDigitChars_repr]

theorem read_repr {n : Nat} (short : n < Nat.pow 10 digitLimit) : read n.repr.toList = .ok n := by
  rw [read_of_allDigits (allDigits_repr n) (repr_ne_nil n)
    ((length_repr_le_iff (by decide)).mpr short), ofDigitChars_repr]

theorem read_minus_repr {n : Nat} (short : n < Nat.pow 10 digitLimit) :
    read ('-' :: n.repr.toList) = .ok (-n) := by
  rw [read_minus_of_allDigits (allDigits_repr n) (repr_ne_nil n)
    ((length_repr_le_iff (by decide)).mpr short), ofDigitChars_repr]

theorem read_repr_long {n : Nat} (long : Nat.pow 10 digitLimit ≤ n) :
    read n.repr.toList = .error (.tooLongToRead n.repr.toList.length) := by
  have decimals := (allDigits_repr n).decimals
  have run := digitRun_of_decimals decimals false (Or.inr (repr_ne_nil n))
  have more : digitLimit < n.repr.toList.length := by
    apply Nat.lt_of_not_le
    rw [length_repr_le_iff (by decide)]
    exact Nat.not_lt.mpr long
  unfold read
  simp only [sign_of_decimals decimals, run, if_pos more]

/-- What can be written is read back. -/
theorem read_of_write {n : Int} {text : String} (written : write n = .ok text) :
    read text.toList = .ok n := by
  unfold write at written
  split at written
  · cases written
  · next short =>
      cases written
      have short := Nat.not_le.mp short
      cases n with
      | ofNat m => exact read_repr short
      | negSucc m =>
          rw [toString_negSucc]
          exact read_minus_repr short

end ValueNumbering.Text.Integer

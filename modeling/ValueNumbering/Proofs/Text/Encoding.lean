import ValueNumbering.Proofs.Text.Lines
import ValueNumbering.Text.Utf8

/-!
Text as bytes and back. The bytes of a text in UTF-8 decode to the text, and to write its
carriage returns as line feeds leaves its lines as they are. A text that may hold surrogates is
refused where it does.
-/

namespace ValueNumbering.Text

section Encodable

variable {first second separator : CodePoints}

def CodePoints.IsEncodable (text : CodePoints) : Prop :=
  ∀ point ∈ text.toList, point.isSurrogate = false

instance : DecidablePred CodePoints.IsEncodable := fun text =>
  inferInstanceAs (Decidable (∀ point ∈ text.toList, point.isSurrogate = false))

@[simp] theorem isEncodable_ofString (text : String) : (CodePoints.ofString text).IsEncodable := by
  intro point member
  obtain ⟨c, -, rfl⟩ := List.mem_map.mp member
  rfl

@[simp] theorem isEncodable_append :
    (first ++ second).IsEncodable ↔ first.IsEncodable ∧ second.IsEncodable := by
  simp only [CodePoints.IsEncodable, CodePoints.toList_append]
  exact List.forall_mem_append

theorem isEncodable_join (plain : separator.IsEncodable) (texts : List CodePoints) :
    (CodePoints.join separator texts).IsEncodable ↔ ∀ text ∈ texts, text.IsEncodable := by
  induction texts with
  | nil => simp [CodePoints.join, CodePoints.IsEncodable]
  | cons text rest ih =>
      rw [List.forall_mem_cons, ← ih]
      cases rest with
      | nil => simp [CodePoints.join, CodePoints.IsEncodable]
      | cons next rest =>
          have cut : CodePoints.join separator (text :: next :: rest) =
              text ++ separator ++ CodePoints.join separator (next :: rest) :=
            congrArg CodePoints.mk List.intercalate_cons_cons
          rw [cut, isEncodable_append, isEncodable_append, and_iff_left plain]

theorem Utf8.surrogatesFrom?_eq_none_iff {position : Nat} {points : List CodePoint} :
    surrogatesFrom? position points = none ↔ ∀ point ∈ points, point.isSurrogate = false := by
  induction points generalizing position with
  | nil => simp [surrogatesFrom?]
  | cons point rest ih =>
      cases point with
      | character c => simp [surrogatesFrom?, ih, CodePoint.isSurrogate]
      | surrogate offset => simp [surrogatesFrom?, CodePoint.isSurrogate]

theorem Utf8.encodingFault?_eq_none_iff {text : CodePoints} :
    encodingFault? text = none ↔ text.IsEncodable :=
  surrogatesFrom?_eq_none_iff

end Encodable

def utf8Bytes (text : String) : List UInt8 := text.toUTF8.data.toList

theorem utf8Bytes_eq (text : String) :
    utf8Bytes text = text.toList.flatMap String.utf8EncodeChar := by
  rw [utf8Bytes, String.toUTF8, ← String.utf8Encode_toList, List.utf8Encode, List.data_toByteArray]

namespace Utf8

section Steps

variable {position : Nat} {p : Partial} {b : UInt8} {rest : List UInt8}

theorem decodeFrom_single (small : b.toNat < 0x80) :
    decodeFrom position none (b :: rest) =
      (decodeFrom (position + 1) none rest).map (Char.ofNat b.toNat :: ·) := by
  rw [decodeFrom, if_pos small]
  rfl

theorem decodeFrom_lead (large : 0x80 ≤ b.toNat) (lead : lead? b.toNat = some p) :
    decodeFrom position none (b :: rest) = decodeFrom (position + 1) (some p) rest := by
  rw [decodeFrom, if_neg (Nat.not_lt.mpr large), lead]

theorem decodeFrom_more (inside : p.least ≤ b.toNat ∧ b.toNat ≤ p.greatest) (owed : p.owed ≠ 1) :
    decodeFrom position (some p) (b :: rest) = decodeFrom (position + 1)
      (some ⟨p.first, p.taken + 1, p.owed - 1, 0x80, 0xBF, p.bits * 0x40 + (b.toNat - 0x80)⟩)
        rest := by
  rw [decodeFrom, if_pos inside, if_neg owed]

theorem decodeFrom_last (inside : p.least ≤ b.toNat ∧ b.toNat ≤ p.greatest) (owed : p.owed = 1) :
    decodeFrom position (some p) (b :: rest) =
      (decodeFrom (position + 1) none rest).map
        (Char.ofNat (p.bits * 0x40 + (b.toNat - 0x80)) :: ·) := by
  rw [decodeFrom, if_pos inside, if_pos owed]
  rfl

end Steps

theorem lead?_two {v : Nat} (large : 0x80 ≤ v) (small : v < 0x800) :
    lead? (v / 64 % 32 + 192) = some ⟨v / 64 % 32 + 192, 1, 1, 0x80, 0xBF, v / 64⟩ := by
  have bits : v / 64 % 32 + 192 - 0xC0 = v / 64 := by omega
  rw [lead?, if_pos (by omega), bits]

theorem lead?_three {v : Nat} (large : 0x800 ≤ v) (small : v < 0x10000) (valid : v.isValidChar) :
    ∃ least greatest, lead? (v / 4096 % 16 + 224) =
      some ⟨v / 4096 % 16 + 224, 1, 2, least, greatest, v / 4096⟩ ∧
      least ≤ v / 64 % 64 + 128 ∧ v / 64 % 64 + 128 ≤ greatest := by
  have notTwo : ¬(0xC2 ≤ v / 4096 % 16 + 224 ∧ v / 4096 % 16 + 224 ≤ 0xDF) := by omega
  rw [lead?, if_neg notTwo]
  by_cases first : v / 4096 = 0
  · have lead : v / 4096 % 16 + 224 = 0xE0 := by omega
    exact ⟨_, _, by rw [if_pos lead, lead, first], by omega, by omega⟩
  rw [if_neg (by omega)]
  by_cases surrogates : v / 4096 = 13
  · have lead : v / 4096 % 16 + 224 = 0xED := by omega
    refine ⟨_, _, by rw [if_pos lead, lead, surrogates], by omega, ?_⟩
    rcases valid with low | high <;> omega
  · have bits : v / 4096 % 16 + 224 - 0xE0 = v / 4096 := by omega
    exact ⟨_, _, by rw [if_neg (by omega), if_pos (by omega), bits], by omega, by omega⟩

theorem lead?_four {v : Nat} (large : 0x10000 ≤ v) (small : v < 0x110000) :
    ∃ least greatest, lead? (v / 262144 % 8 + 240) =
      some ⟨v / 262144 % 8 + 240, 1, 3, least, greatest, v / 262144⟩ ∧
      least ≤ v / 4096 % 64 + 128 ∧ v / 4096 % 64 + 128 ≤ greatest := by
  rw [lead?, if_neg (by omega), if_neg (by omega), if_neg (by omega), if_neg (by omega)]
  by_cases first : v / 262144 = 0
  · have lead : v / 262144 % 8 + 240 = 0xF0 := by omega
    exact ⟨_, _, by rw [if_pos lead, lead, first], by omega, by omega⟩
  rw [if_neg (by omega)]
  by_cases last : v / 262144 = 4
  · have lead : v / 262144 % 8 + 240 = 0xF4 := by omega
    exact ⟨_, _, by rw [if_neg (by omega), if_pos lead, lead, last], by omega, by omega⟩
  · have bits : v / 262144 % 8 + 240 - 0xF0 = v / 262144 := by omega
    exact ⟨_, _, by rw [if_pos (by omega), bits], by omega, by omega⟩

theorem toNat_ofNat_of_lt {n : Nat} (small : n < 256) : (UInt8.ofNat n).toNat = n := by
  rw [UInt8.toNat_ofNat', Nat.mod_eq_of_lt small]

theorem toNat_tail (v : Nat) : (UInt8.ofNat (v % 64 + 128)).toNat = v % 64 + 128 :=
  toNat_ofNat_of_lt (by omega)

theorem tail_bounds (v : Nat) :
    0x80 ≤ (UInt8.ofNat (v % 64 + 128)).toNat ∧ (UInt8.ofNat (v % 64 + 128)).toNat ≤ 0xBF := by
  rw [toNat_tail]
  omega

section Characters

variable {v position : Nat} {rest : List UInt8}

theorem decodeFrom_one (small : v < 0x80) :
    decodeFrom position none (UInt8.ofNat v :: rest) =
      (decodeFrom (position + 1) none rest).map (Char.ofNat v :: ·) := by
  have byte := toNat_ofNat_of_lt (n := v) (by omega)
  rw [decodeFrom_single (by omega), byte]

theorem decodeFrom_two (large : 0x80 ≤ v) (small : v < 0x800) :
    decodeFrom position none
        (UInt8.ofNat (v / 64 % 32 + 192) :: UInt8.ofNat (v % 64 + 128) :: rest) =
      (decodeFrom (position + 2) none rest).map (Char.ofNat v :: ·) := by
  have byte := toNat_ofNat_of_lt (n := v / 64 % 32 + 192) (by omega)
  have lead := lead?_two large small
  rw [← byte] at lead
  have bits : v / 64 * 0x40 + (v % 64 + 128 - 0x80) = v := by omega
  rw [decodeFrom_lead (by omega) lead, decodeFrom_last (tail_bounds _) rfl, toNat_tail, bits]

theorem decodeFrom_three (large : 0x800 ≤ v) (small : v < 0x10000) (valid : v.isValidChar) :
    decodeFrom position none
        (UInt8.ofNat (v / 4096 % 16 + 224) :: UInt8.ofNat (v / 64 % 64 + 128) ::
          UInt8.ofNat (v % 64 + 128) :: rest) =
      (decodeFrom (position + 3) none rest).map (Char.ofNat v :: ·) := by
  have byte := toNat_ofNat_of_lt (n := v / 4096 % 16 + 224) (by omega)
  obtain ⟨least, greatest, lead, low, high⟩ := lead?_three large small valid
  rw [← byte] at lead
  have twoOwed : (2 : Nat) ≠ 1 := by decide
  have bits : (v / 4096 * 0x40 + (v / 64 % 64 + 128 - 0x80)) * 0x40 + (v % 64 + 128 - 0x80) =
      v := by omega
  rw [decodeFrom_lead (by omega) lead,
    decodeFrom_more (by rw [toNat_tail]; exact ⟨low, high⟩) twoOwed,
    decodeFrom_last (tail_bounds _) rfl, toNat_tail, toNat_tail, bits]

theorem decodeFrom_four (large : 0x10000 ≤ v) (small : v < 0x110000) :
    decodeFrom position none
        (UInt8.ofNat (v / 262144 % 8 + 240) :: UInt8.ofNat (v / 4096 % 64 + 128) ::
          UInt8.ofNat (v / 64 % 64 + 128) :: UInt8.ofNat (v % 64 + 128) :: rest) =
      (decodeFrom (position + 4) none rest).map (Char.ofNat v :: ·) := by
  have byte := toNat_ofNat_of_lt (n := v / 262144 % 8 + 240) (by omega)
  obtain ⟨least, greatest, lead, low, high⟩ := lead?_four large small
  rw [← byte] at lead
  have twoOwed : (2 : Nat) ≠ 1 := by decide
  have threeOwed : (3 : Nat) ≠ 1 := by decide
  have bits : ((v / 262144 * 0x40 + (v / 4096 % 64 + 128 - 0x80)) * 0x40 +
      (v / 64 % 64 + 128 - 0x80)) * 0x40 +
      (v % 64 + 128 - 0x80) = v := by omega
  rw [decodeFrom_lead (by omega) lead,
    decodeFrom_more (by rw [toNat_tail]; exact ⟨low, high⟩) threeOwed,
    decodeFrom_more (tail_bounds _) twoOwed, decodeFrom_last (tail_bounds _) rfl, toNat_tail,
      toNat_tail, toNat_tail, bits]

end Characters

theorem decodeFrom_encoded (c : Char) (position : Nat) (rest : List UInt8) :
    ∃ after, decodeFrom position none (String.utf8EncodeChar c ++ rest) =
      (decodeFrom after none rest).map (c :: ·) := by
  have valid : c.toNat.isValidChar := c.valid
  have whole : Char.ofNat c.toNat = c := c.ofNat_toNat
  have value : c.val.toNat = c.toNat := rfl
  unfold String.utf8EncodeChar
  rw [value]
  generalize c.toNat = v at valid whole ⊢
  have bound : v < 0x110000 := by
    simp only [Nat.isValidChar] at valid
    omega
  rw [← whole]
  by_cases one : v ≤ 127
  · rw [if_pos one]
    exact ⟨_, decodeFrom_one (by omega)⟩
  by_cases two : v ≤ 2047
  · rw [if_neg one, if_pos two]
    exact ⟨_, decodeFrom_two (by omega) (by omega)⟩
  by_cases three : v ≤ 65535
  · rw [if_neg one, if_neg two, if_pos three]
    exact ⟨_, decodeFrom_three (by omega) (by omega) valid⟩
  · rw [if_neg one, if_neg two, if_neg three]
    exact ⟨_, decodeFrom_four (by omega) bound⟩

theorem decodeFrom_utf8 (text : List Char) (position : Nat) :
    decodeFrom position none (text.flatMap String.utf8EncodeChar) = .ok text := by
  induction text generalizing position with
  | nil => rfl
  | cons c rest ih =>
      obtain ⟨after, decoded⟩ := decodeFrom_encoded c position (rest.flatMap String.utf8EncodeChar)
      rw [List.flatMap_cons, decoded, ih]
      rfl

/-- The bytes of a text decode to the text. -/
theorem decode_utf8Bytes (text : String) : decode (utf8Bytes text) = .ok text.toList := by
  rw [utf8Bytes_eq]
  exact decodeFrom_utf8 text.toList 0

end Utf8

theorem lines_cons {c : Char} (other : c ≠ '\r') (rest : List Char) :
    lines (c :: rest) = if isLineBoundary c then [] :: lines rest else extendFirst c (lines rest) :=
  lines.eq_3 c rest fun _ same _ => other same

theorem lines_plainNewlines (text : List Char) : lines (plainNewlines text) = lines text := by
  have lineFeed : ∀ rest, lines ('\n' :: rest) = [] :: lines rest :=
    fun rest => lines_append unbroken_nil rest
  induction text using plainNewlines.induct with
  | case1 => rfl
  | case2 rest ih => rw [plainNewlines, lineFeed, ih, lines]
  | case3 c rest alone ih =>
      rw [plainNewlines.eq_3 c rest alone]
      by_cases isReturn : c = '\r'
      · have boundary : isLineBoundary c = true := by
          rw [isReturn]
          decide
        rw [if_pos isReturn, lineFeed, ih, lines.eq_3 c rest alone, if_pos boundary]
      · rw [if_neg isReturn, lines_cons isReturn, lines_cons isReturn, ih]

end ValueNumbering.Text

import ValueNumbering.Text.Ranges

/-! Blanks, which separate words and surround them, and the characters that end a line. -/

namespace ValueNumbering.Text

/-- Tab to carriage return, the four information separators and the space below 128, and the spaces
and line ends above it. A zero-width space and a byte order mark are not blank. -/
def isBlank (c : Char) : Bool :=
  if c.toNat < 0x80 then
    c.toNat == 0x20 || (0x09 ≤ c.toNat && c.toNat ≤ 0x0D) || (0x1C ≤ c.toNat && c.toNat ≤ 0x1F)
  else Ranges.contains [(0x85, 0x85), (0xA0, 0xA0), (0x1680, 0x1680), (0x2000, 0x200A),
    (0x2028, 0x2029), (0x202F, 0x202F), (0x205F, 0x205F), (0x3000, 0x3000)] c.toNat

/-- A line ends at a line feed, a carriage return, a vertical tab, a form feed, a file, group or
record separator, a next-line character and the two Unicode separators. -/
def isLineBoundary (c : Char) : Bool :=
  (0x0A ≤ c.toNat && c.toNat ≤ 0x0D) || (0x1C ≤ c.toNat && c.toNat ≤ 0x1E) ||
    c.toNat == 0x85 || c.toNat == 0x2028 || c.toNat == 0x2029

theorem isBlank_of_isLineBoundary {c : Char} (boundary : isLineBoundary c = true) :
    isBlank c = true := by
  simp only [isLineBoundary, Bool.or_eq_true, Bool.and_eq_true, decide_eq_true_eq,
    beq_iff_eq] at boundary
  simp only [isBlank, Ranges.contains, List.any_cons, List.any_nil]
  split <;> simp <;> omega

end ValueNumbering.Text

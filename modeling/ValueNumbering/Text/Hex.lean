/-! Hexadecimal digits. Digits are written small and read in either case. -/

namespace ValueNumbering.Text.Hex

def digit (n : Nat) : Char := ("0123456789abcdef".toList)[n]?.getD '0'

def value? (c : Char) : Option Nat :=
  if c.isDigit then some (c.toNat - '0'.toNat)
  else if 'a' ≤ c && c ≤ 'f' then some (c.toNat - 'a'.toNat + 10)
  else if 'A' ≤ c && c ≤ 'F' then some (c.toNat - 'A'.toNat + 10)
  else none

def write : Nat → Nat → List Char
  | 0, _ => []
  | width + 1, n => write width (n / 16) ++ [digit (n % 16)]

end ValueNumbering.Text.Hex

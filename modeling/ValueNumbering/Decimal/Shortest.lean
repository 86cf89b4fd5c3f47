import ValueNumbering.Decimal.Binary64

/-!
The shortest decimal that reads back as a given number, and its layout. Of the decimals with the
fewest digits that read back, the nearest to the number is taken.
-/

namespace ValueNumbering.Decimal

open Binary64

/-- Tests `left * 10 ^ tens ≤ right * 2 ^ twos` by cross multiplication. -/
def scaledLe (left : Nat) (tens : Int) (right : Nat) (twos : Int) : Bool :=
  left * tenTo tens.toNat * twoTo (-twos).toNat ≤ right * twoTo twos.toNat * tenTo (-tens).toNat

/-- Tests whether `digits * 10 ^ tens` reads back as `mantissa * 2 ^ exponent`. The neighbour below
is nearer where the mantissa is the least of its exponent; the ends of the interval belong to an
even mantissa. -/
def readsBack (mantissa : Nat) (exponent : Int) (digits : Nat) (tens : Int) : Bool :=
  let below := if mantissa = leastNormal ∧ -1074 < exponent then 1 else 2
  let least := 4 * mantissa - below
  let greatest := 4 * mantissa + 2
  if mantissa % 2 = 0 then
    scaledLe digits tens greatest (exponent - 2) &&
      least * twoTo (exponent - 2).toNat * tenTo (-tens).toNat ≤
        digits * tenTo tens.toNat * twoTo (2 - exponent).toNat
  else
    digits * tenTo tens.toNat * twoTo (2 - exponent).toNat <
        greatest * twoTo (exponent - 2).toNat * tenTo (-tens).toNat &&
      !scaledLe digits tens least (exponent - 2)

def point (num den : Nat) : Int :=
  let guess := (decimalLength num : Int) - decimalLength den
  if num * tenTo (-guess).toNat < den * tenTo guess.toNat then guess else guess + 1

/-- The decimal of a given number of digits that is nearest to the number among those that read
back. -/
def nearestOfLength (mantissa : Nat) (exponent : Int) (length : Nat) : Option (Nat × Int) :=
  let num := mantissa * twoTo exponent.toNat
  let den := twoTo (-exponent).toNat
  let tens := point num den - length
  let scaledNum := num * tenTo (-tens).toNat
  let scaledDen := den * tenTo tens.toNat
  let lower := scaledNum / scaledDen
  let nearer := roundDiv scaledNum scaledDen
  let farther := if nearer = lower then lower + 1 else lower
  if readsBack mantissa exponent nearer tens then some (nearer, tens)
  else if readsBack mantissa exponent farther tens then some (farther, tens)
  else none

def shortest (mantissa : Nat) (exponent : Int) : Nat × Int :=
  ((List.range 17).findSome? fun n => nearestOfLength mantissa exponent (n + 1)).getD
    (mantissa, exponent)

def dropTrailingZeros (digits : List Char) : List Char :=
  (digits.reverse.dropWhile (· == '0')).reverse

/-- Two digits at least, and always a sign. -/
def exponentText (exponent : Int) : List Char :=
  let digits := Nat.toDigits 10 exponent.natAbs
  (if exponent < 0 then '-' else '+') :: (if digits.length < 2 then '0' :: digits else digits)

/-- Places the point: positionally from 10^-4 up to 10^16, else after the first digit and with an
exponent. `point` counts the digits before the point. -/
def layout (digits : List Char) (point : Int) : List Char :=
  if point ≤ -4 ∨ 16 < point then
    let mantissa := match digits with
      | first :: next :: more => first :: '.' :: next :: more
      | short => short
    mantissa ++ 'e' :: exponentText (point - 1)
  else if point ≤ 0 then '0' :: '.' :: (List.replicate (-point).toNat '0' ++ digits)
  else if digits.length ≤ point then
    digits ++ List.replicate (point.toNat - digits.length) '0' ++ ['.', '0']
  else digits.take point.toNat ++ '.' :: digits.drop point.toNat

def magnitudeText (mantissa : Nat) (exponent : Int) : List Char :=
  if mantissa = 0 then ['0', '.', '0']
  else
    let (value, tens) := shortest mantissa exponent
    let digits := Nat.toDigits 10 value
    layout (dropTrailingZeros digits) (tens + digits.length)

end ValueNumbering.Decimal

namespace ValueNumbering

def Binary64.text : Binary64 → String
  | .nan => "nan"
  | .infinite negative => if negative then "-inf" else "inf"
  | .finite negative mantissa exponent =>
      (if negative then "-" else "") ++ String.ofList (Decimal.magnitudeText mantissa exponent)

end ValueNumbering

/-!
Binary floating-point numbers of 64 bits as exact values. A finite one is a mantissa below 2^53
times a power of two; reading a decimal rounds once, to nearest, a tie going to the even mantissa.
-/

namespace ValueNumbering

inductive Binary64
  | nan
  | infinite (negative : Bool)
  | finite (negative : Bool) (mantissa : Nat) (exponent : Int)
  deriving DecidableEq, Repr

namespace Binary64

def twoTo (n : Nat) : Nat := Nat.pow 2 n

def tenTo (n : Nat) : Nat := Nat.pow 10 n

/-- The least mantissa of full precision. -/
def leastNormal : Nat := 4503599627370496

def zero (negative : Bool) : Binary64 := .finite negative 0 (-1074)

/-- The quotient rounded to the nearest integer, a half to the even one. -/
def roundDiv (num den : Nat) : Nat :=
  let quotient := num / den
  let remainder := num % den
  if 2 * remainder < den then quotient
  else if den < 2 * remainder then quotient + 1
  else quotient + quotient % 2

def roundScaled (num den : Nat) (power : Int) : Nat :=
  roundDiv (num * twoTo (-power).toNat) (den * twoTo power.toNat)

def floorLog2 (num den : Nat) : Int :=
  let guess := (num.log2 : Int) - den.log2
  if num * twoTo (-guess).toNat < den * twoTo guess.toNat then guess - 1 else guess

def ofRatio (negative : Bool) (num den : Nat) : Binary64 :=
  if num = 0 then zero negative
  else
    let exponent := max (floorLog2 num den - 52) (-1074)
    let mantissa := roundScaled num den exponent
    let (mantissa, exponent) :=
      if mantissa = 2 * leastNormal then (leastNormal, exponent + 1) else (mantissa, exponent)
    if 971 < exponent then .infinite negative else .finite negative mantissa exponent

def decimalLength (n : Nat) : Nat := (Nat.toDigits 10 n).length

/-- The nearest representable number to `digits * 10 ^ power`. Magnitudes far beyond the range are
settled before any power of ten is formed. -/
def ofDecimal (negative : Bool) (digits : Nat) (power : Int) : Binary64 :=
  let magnitude := (decimalLength digits : Int) + power
  if digits = 0 ∨ magnitude < -400 then zero negative
  else if 400 < magnitude then .infinite negative
  else ofRatio negative (digits * tenTo power.toNat) (tenTo (-power).toNat)

def isZero : Binary64 → Bool
  | .finite _ mantissa _ => mantissa == 0
  | _ => false

/-- The integer part, of the sign of the number. -/
def truncate (negative : Bool) (mantissa : Nat) (exponent : Int) : Int :=
  let magnitude := mantissa * twoTo exponent.toNat / twoTo (-exponent).toNat
  if negative then -(magnitude : Int) else magnitude

end Binary64

end ValueNumbering

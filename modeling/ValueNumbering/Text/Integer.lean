import ValueNumbering.Text.Blank
import ValueNumbering.Text.Digit
import ValueNumbering.Text.Quoted

/-!
Integers as decimal text. A number has an optional sign and digits of any script, single underscores
may stand between digits, and blanks may surround it. Neither reading nor writing goes beyond
`digitLimit` digits.
-/

namespace ValueNumbering.Text.Integer

def digitLimit : Nat := 4300

inductive Fault
  | malformed (text : CodePoints)
  | tooLongToRead (digits : Nat)
  | tooLongToWrite
  deriving DecidableEq, Repr

def Fault.message : Fault → String
  | .malformed text =>
      "invalid literal for int() with base 10: " ++ String.ofList ((Quoted.encode text).take 200)
  | .tooLongToRead digits =>
      s!"Exceeds the limit ({digitLimit} digits) for integer string conversion: value has {digits} digits; " ++
        "use sys.set_int_max_str_digits() to increase the limit"
  | .tooLongToWrite =>
      s!"Exceeds the limit ({digitLimit} digits) for integer string conversion; " ++
        "use sys.set_int_max_str_digits() to increase the limit"

/-- Blanks around a number: all but the information separators. -/
def isPadding (c : Char) : Bool :=
  isBlank c && !(0x1C ≤ c.toNat && c.toNat ≤ 0x1F)

def decimalValue (start : Nat) : List Char → Nat
  | [] => start
  | c :: rest => decimalValue (10 * start + (digitValue? c).getD 0) rest

/-- Digits with single underscores between them, and the text after them. The flag tells whether a
digit stands right before; the result is none where an underscore has no digit on one side. -/
def digitRun (afterDigit : Bool) : List Char → Option (List Char × List Char)
  | [] => if afterDigit then some ([], []) else none
  | c :: rest =>
      if isDecimal c then (digitRun true rest).map fun run => (c :: run.1, run.2)
      else if c = '_' then if afterDigit then digitRun false rest else none
      else if afterDigit then some ([], c :: rest) else none

def sign : List Char → Bool × List Char
  | '-' :: rest => (true, rest)
  | '+' :: rest => (false, rest)
  | text => (false, text)

def signed (negative : Bool) (magnitude : Nat) : Int :=
  if negative then -(magnitude : Int) else magnitude

/-- The limit on digits is looked at before the text after them. -/
def read (text : List Char) : Except Fault Int :=
  let (negative, body) := sign (text.dropWhile isPadding)
  match digitRun false body with
  | none => .error (.malformed (.ofChars text))
  | some (digits, after) =>
      if digitLimit < digits.length then .error (.tooLongToRead digits.length)
      else if after.all isPadding then .ok (signed negative (decimalValue 0 digits))
      else .error (.malformed (.ofChars text))

/-- The integer in a text that may hold surrogates. They are no part of a number and no blanks, and
neither is the replacement character, so the text is read as it is shown, while a fault tells of the
text itself. -/
def readPoints (text : CodePoints) : Except Fault Int :=
  match read text.shown.toList with
  | .error (.malformed _) => .error (.malformed text)
  | result => result

def write (n : Int) : Except Fault String :=
  if Nat.pow 10 digitLimit ≤ n.natAbs then .error .tooLongToWrite else .ok (toString n)

end ValueNumbering.Text.Integer

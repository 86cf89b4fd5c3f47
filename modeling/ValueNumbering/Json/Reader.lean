import ValueNumbering.Json.Basic
import ValueNumbering.Text.Integer

/-!
Reading JSON documents. A fault carries the text that was left where it lies, and the place in a
report is found from the length of what stands before. Every nested call of the reader has consumed
a character, so a bound of twice the length of the text on the depth of calls is never reached.
-/

namespace ValueNumbering.Json

inductive Cause
  | noValue
  | noName
  | noColon
  | noComma
  | unterminatedString
  | controlCharacter
  | badEscape
  | badCodeUnit
  | extraData
  | byteOrderMark
  deriving DecidableEq, Repr

def Cause.message : Cause → String
  | .noValue => "Expecting value"
  | .noName => "Expecting property name enclosed in double quotes"
  | .noColon => "Expecting ':' delimiter"
  | .noComma => "Expecting ',' delimiter"
  | .unterminatedString => "Unterminated string starting at"
  | .controlCharacter => "Invalid control character at"
  | .badEscape => "Invalid \\escape"
  | .badCodeUnit => "Invalid \\uXXXX escape"
  | .extraData => "Extra data"
  | .byteOrderMark => "Unexpected UTF-8 BOM (decode using utf-8-sig)"

inductive Fault
  | malformed (cause : Cause) (rest : List Char)
  | integer (fault : Text.Integer.Fault)
  deriving DecidableEq, Repr

/-- The line of a place and the column in it, both counted from one, and the characters before
it. -/
def place (text rest : List Char) : Nat × Nat × Nat :=
  let before := text.take (text.length - rest.length)
  let sinceNewline := before.reverse.takeWhile (· != '\n')
  (before.count '\n' + 1, sinceNewline.length + 1, before.length)

def Fault.message (text : List Char) : Fault → String
  | .malformed cause rest =>
      let (line, column, offset) := place text rest
      s!"{cause.message}: line {line} column {column} (char {offset})"
  | .integer fault => fault.message

namespace Reader

def fail {α : Type} (cause : Cause) (rest : List Char) : Except Fault (α × List Char) :=
  .error (.malformed cause rest)

def isSpace (c : Char) : Bool := c == ' ' || c == '\t' || c == '\n' || c == '\r'

def skipSpace (text : List Char) : List Char := text.dropWhile isSpace

def codeUnit? : List Char → Option Nat
  | a :: b :: c :: d :: _ :: _ => do
      let a ← Text.Hex.value? a
      let b ← Text.Hex.value? b
      let c ← Text.Hex.value? c
      let d ← Text.Hex.value? d
      return ((a * 16 + b) * 16 + c) * 16 + d
  | _ => none

def followingUnit? : List Char → Option Nat
  | '\\' :: 'u' :: rest => codeUnit? rest
  | _ => none

/-- A high surrogate and a low one that follows it are one character. Every other unit is a code
point of its own. -/
def joinUnits (unit : Nat) (after : List Char) : Text.CodePoint × Nat :=
  if 0xD800 ≤ unit ∧ unit < 0xDC00 then
    match followingUnit? after with
    | some low =>
        if 0xDC00 ≤ low ∧ low < 0xE000 then
          (.character (Char.ofNat (0x10000 + (unit - 0xD800) * 0x400 + (low - 0xDC00))), 11)
        else (.ofUnit unit, 5)
    | none => (.ofUnit unit, 5)
  else (.ofUnit unit, 5)

def simpleEscape? : Char → Option Char
  | '"' => some '"'
  | '\\' => some '\\'
  | '/' => some '/'
  | 'b' => some '\x08'
  | 'f' => some '\x0c'
  | 'n' => some '\n'
  | 'r' => some '\r'
  | 't' => some '\t'
  | _ => none

def escape (opening : List Char) : List Char → Except Fault (Text.CodePoint × Nat)
  | [] => .error (.malformed .unterminatedString opening)
  | 'u' :: rest =>
      match codeUnit? rest with
      | some unit => .ok (joinUnits unit (rest.drop 4))
      | none => .error (.malformed .badCodeUnit ('u' :: rest))
  | c :: rest =>
      match simpleEscape? c with
      | some meant => .ok (.character meant, 1)
      | none => .error (.malformed .badEscape ('\\' :: c :: rest))

/-- The code points of a string up to its closing quote. The first argument counts characters that
belong to an escape already read. -/
def codePoints (opening : List Char) :
    Nat → List Char → Except Fault (List Text.CodePoint × List Char)
  | _, [] => fail .unterminatedString opening
  | skip + 1, _ :: rest => codePoints opening skip rest
  | 0, c :: rest =>
      if c = '"' then .ok ([], rest)
      else if c = '\\' then do
        let (meant, length) ← escape opening rest
        let (more, after) ← codePoints opening length rest
        return (meant :: more, after)
      else if c.toNat ≤ 0x1F then fail .controlCharacter (c :: rest)
      else do
        let (more, after) ← codePoints opening 0 rest
        return (.character c :: more, after)

def string (opening rest : List Char) : Except Fault (Text.CodePoints × List Char) := do
  let (points, after) ← codePoints opening 0 rest
  return (⟨points⟩, after)

def digits (text : List Char) : List Char × List Char := text.span Char.isDigit

def naturalOf (ds : List Char) : Nat := Text.Integer.decimalValue 0 ds

/-- The digits before a point: a lone zero, or digits that do not begin with one. -/
def wholePart : List Char → List Char × List Char
  | '0' :: rest => (['0'], rest)
  | text => digits text

def fractionPart : List Char → List Char × List Char
  | '.' :: rest =>
      match digits rest with
      | ([], _) => ([], '.' :: rest)
      | found => found
  | text => ([], text)

def exponentPart (text : List Char) : Option Int × List Char :=
  match text with
  | mark :: rest =>
      if mark = 'e' ∨ mark = 'E' then
        let (negative, body) := Text.Integer.sign rest
        match digits body with
        | ([], _) => (none, text)
        | (ds, after) => (some (Text.Integer.signed negative (naturalOf ds)), after)
      else (none, text)
  | [] => (none, text)

/-- A number is an integer unless it has a fraction or an exponent. -/
def number (text : List Char) : Except Fault (Json × List Char) :=
  let (negative, body) := match text with
    | '-' :: rest => (true, rest)
    | _ => (false, text)
  match wholePart body with
  | ([], _) => fail .noValue text
  | (whole, afterWhole) =>
      let (fraction, afterFraction) := fractionPart afterWhole
      let (exponent, after) := exponentPart afterFraction
      if fraction.isEmpty && exponent.isNone then
        if Text.Integer.digitLimit < whole.length then
          .error (.integer (.tooLongToRead whole.length))
        else .ok (.int (Text.Integer.signed negative (naturalOf whole)), after)
      else
        .ok (.float (Binary64.ofDecimal negative (naturalOf (whole ++ fraction))
          (exponent.getD 0 - fraction.length)), after)

mutual

def value : Nat → List Char → Except Fault (Json × List Char)
  | 0, text => fail .noValue text
  | fuel + 1, text =>
      match text with
      | '"' :: rest => (string text rest).map fun read => (.str read.1, read.2)
      | '{' :: rest =>
          match skipSpace rest with
          | '}' :: after => .ok (.obj ∅, after)
          | body => members fuel ∅ body
      | '[' :: rest =>
          match skipSpace rest with
          | ']' :: after => .ok (.arr [], after)
          | body => (items fuel body).map fun read => (.arr read.1, read.2)
      | 'n' :: 'u' :: 'l' :: 'l' :: rest => .ok (.null, rest)
      | 't' :: 'r' :: 'u' :: 'e' :: rest => .ok (.bool true, rest)
      | 'f' :: 'a' :: 'l' :: 's' :: 'e' :: rest => .ok (.bool false, rest)
      | 'N' :: 'a' :: 'N' :: rest => .ok (.float .nan, rest)
      | 'I' :: 'n' :: 'f' :: 'i' :: 'n' :: 'i' :: 't' :: 'y' :: rest =>
        .ok (.float (.infinite false), rest)
      | '-' :: 'I' :: 'n' :: 'f' :: 'i' :: 'n' :: 'i' :: 't' :: 'y' :: rest =>
          .ok (.float (.infinite true), rest)
      | _ => number text

def items : Nat → List Char → Except Fault (List Json × List Char)
  | 0, text => fail .noValue text
  | fuel + 1, text => do
      let (item, rest) ← value fuel text
      match skipSpace rest with
      | ']' :: after => return ([item], after)
      | ',' :: after =>
          let (more, after) ← items fuel (skipSpace after)
          return (item :: more, after)
      | other => fail .noComma other

/-- The members of an object from the first name to the closing brace. A name that comes again keeps
its place and takes the later value. -/
def members : Nat → Dictionary Text.CodePoints Json → List Char → Except Fault (Json × List Char)
  | 0, _, text => fail .noValue text
  | fuel + 1, found, text =>
      match text with
      | '"' :: rest => do
          let (name, rest) ← string text rest
          match skipSpace rest with
          | ':' :: rest =>
              let (member, rest) ← value fuel (skipSpace rest)
              let found := found.insert name member
              match skipSpace rest with
              | '}' :: after => return (.obj found, after)
              | ',' :: after => members fuel found (skipSpace after)
              | other => fail .noComma other
          | other => fail .noColon other
      | _ => fail .noName text

end

end Reader

def read (text : List Char) : Except Fault Json :=
  match text with
  | '\uFEFF' :: _ => .error (.malformed .byteOrderMark text)
  | _ => do
      let (document, rest) ← Reader.value (2 * text.length + 1) (Reader.skipSpace text)
      match Reader.skipSpace rest with
      | [] => .ok document
      | extra => .error (.malformed .extraData extra)

end ValueNumbering.Json

import ValueNumbering.Text.CodePoints
import ValueNumbering.Text.Hex
import ValueNumbering.Text.Printable

/-!
Text in quotes, as messages show it. Single quotes stand around it unless it holds a single quote
and no double quote. A backslash, the quote in use, every character without a visible form and every
surrogate without partner are escaped, so that what is written is always a plain string.
-/

namespace ValueNumbering.Text.Quoted

/-- The quote that needs the fewest escapes. -/
def quoteFor (text : CodePoints) : Char :=
  if text.toList.contains (.character '\'') && !text.toList.contains (.character '"') then '"'
    else '\''

/-- The shortest of the three numeric escapes that can hold the code point. -/
def numericEscape (point : Nat) : List Char :=
  if point < 0x100 then '\\' :: 'x' :: Hex.write 2 point
  else if point < 0x10000 then '\\' :: 'u' :: Hex.write 4 point
  else '\\' :: 'U' :: Hex.write 8 point

def encodeChar (quote c : Char) : List Char :=
  if c = quote ∨ c = '\\' then ['\\', c]
  else if c = '\n' then ['\\', 'n']
  else if c = '\r' then ['\\', 'r']
  else if c = '\t' then ['\\', 't']
  else if isPrintable c then [c]
  else numericEscape c.toNat

def encodePoint (quote : Char) : CodePoint → List Char
  | .character c => encodeChar quote c
  | .surrogate offset => numericEscape (CodePoint.surrogate offset).toNat

def encode (text : CodePoints) : List Char :=
  let quote := quoteFor text
  quote :: (text.toList.flatMap (encodePoint quote) ++ [quote])

end ValueNumbering.Text.Quoted

namespace ValueNumbering.Text

def quoted (text : CodePoints) : String := String.ofList (Quoted.encode text)

end ValueNumbering.Text

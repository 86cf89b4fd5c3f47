import ValueNumbering.Text.Word
import ValueNumbering.Text.Words

/-! Names of values, functions, globals and labels, and small cuts of a line around them. -/

namespace ValueNumbering.Assembly

open Text

def isNameChar (c : Char) : Bool := isWord c || c == '-' || c == '.' || c == '$'

def name? (text : List Char) : Option (List Char × List Char) :=
  match text.span isNameChar with
  | ([], _) => none
  | found => some found

def after? (c : Char) : List Char → Option (List Char)
  | [] => none
  | d :: rest => if d = c then some rest else none

def afterWord? (word : String) (text : List Char) : Option (List Char) := do
  let rest ← word.toList.isPrefixOf? text
  match rest with
  | [] => some rest
  | c :: _ => if isWord c then none else some rest

def startsWith (word : String) (text : List Char) : Bool := word.toList.isPrefixOf text

/-- The text before the last occurrence of a character and the text after it. -/
def cutAtLast? (c : Char) (text : List Char) : Option (List Char × List Char) :=
  match text.reverse.span (· != c) with
  | (_, []) => none
  | (after, _ :: before) => some (before.reverse, after.reverse)

def bound? (text : List Char) : Option (List Char × List Char) := do
  let (name, rest) ← name? text
  let rest ← after? '=' (trimLeft rest)
  return (name, trimLeft rest)

end ValueNumbering.Assembly

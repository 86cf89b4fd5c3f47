import ValueNumbering.Text.Words

/-!
Lists written with commas. A comma separates only where as many brackets have been closed as opened;
the count may fall below zero in malformed text, and a comma there does not separate.
-/

namespace ValueNumbering.Text

def isOpening (c : Char) : Bool := c == '(' || c == '[' || c == '{' || c == '<'

def isClosing (c : Char) : Bool := c == ')' || c == ']' || c == '}' || c == '>'

def depthAfter (depth : Int) (c : Char) : Int :=
  if isOpening c then depth + 1 else if isClosing c then depth - 1 else depth

/-- Cuts at the commas that stand at count zero; there is always a last piece. -/
def cutAtCommas (depth : Int) : List Char → List (List Char)
  | [] => [[]]
  | c :: rest =>
      if c = ',' ∧ depth = 0 then [] :: cutAtCommas depth rest
      else match cutAtCommas (depthAfter depth c) rest with
        | [] => [[c]]
        | piece :: more => (c :: piece) :: more

/-- Leaves out a last piece that is empty. -/
def dropEmptyLast : List (List Char) → List (List Char)
  | [] => []
  | [piece] => if piece.isEmpty then [] else [piece]
  | piece :: next :: more => piece :: dropEmptyLast (next :: more)

/-- The items of a comma list, trimmed. Empty items count, but not an empty last one. -/
def pieces (text : List Char) : List (List Char) :=
  dropEmptyLast ((cutAtCommas 0 text).map trim)

theorem cutAtCommas_ne_nil (depth : Int) (text : List Char) : cutAtCommas depth text ≠ [] := by
  cases text with
  | nil => simp [cutAtCommas]
  | cons c rest =>
      unfold cutAtCommas
      split
      · simp
      · split <;> simp

end ValueNumbering.Text

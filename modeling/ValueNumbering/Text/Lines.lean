import ValueNumbering.Text.Blank

/-! Text as lines. A carriage return with the line feed after it is one boundary. -/

namespace ValueNumbering.Text

def extendFirst (c : Char) : List (List Char) → List (List Char)
  | [] => [[c]]
  | line :: more => (c :: line) :: more

/-- The lines without their boundaries. A boundary at the very end starts no further line. -/
def lines : List Char → List (List Char)
  | [] => []
  | '\r' :: '\n' :: rest => [] :: lines rest
  | c :: rest => if isLineBoundary c then [] :: lines rest else extendFirst c (lines rest)

def numberedLines (text : List Char) : List (Nat × List Char) :=
  (lines text).zipIdx 1 |>.map fun entry => (entry.2, entry.1)

/-- Writes every carriage return, alone or before a line feed, as a line feed. -/
def plainNewlines : List Char → List Char
  | [] => []
  | '\r' :: '\n' :: rest => '\n' :: plainNewlines rest
  | c :: rest => (if c = '\r' then '\n' else c) :: plainNewlines rest

def unlines (ls : List String) : String := String.join (ls.map (· ++ "\n"))

theorem lines_of_not_boundary {c : Char} (inside : isLineBoundary c = false) (text : List Char) :
    lines (c :: text) = extendFirst c (lines text) := by
  have plain : c ≠ '\r' := by
    rintro rfl
    exact absurd inside (by decide)
  rw [lines.eq_3 c text (fun rest hc _ => plain hc)]
  simp [inside]

end ValueNumbering.Text

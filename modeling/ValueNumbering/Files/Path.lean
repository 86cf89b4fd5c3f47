import ValueNumbering.Text.Words

/-! File paths: their components, one spelling for equal ones, and the name of the file. -/

namespace ValueNumbering.Files.Path

def split (path : List Char) : List (List Char) := Text.separate '/' path

/-- Empty components and single dots do not count. -/
def parts (path : List Char) : List (List Char) :=
  (split path).filter fun part => part ≠ [] ∧ part ≠ ['.']

/-- The leading slashes that count: two are not the same as one, and more are. -/
def root : List Char → List Char
  | '/' :: '/' :: '/' :: _ => ['/']
  | '/' :: '/' :: _ => ['/', '/']
  | '/' :: _ => ['/']
  | _ => []

/-- The parts with single slashes between them; a dot where there are none. -/
def normalize (path : List Char) : List Char :=
  match root path ++ ['/'].intercalate (parts path) with
  | [] => ['.']
  | found => found

def name (path : List Char) : List Char := (parts path).getLast?.getD []

end ValueNumbering.Files.Path

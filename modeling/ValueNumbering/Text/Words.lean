import ValueNumbering.Text.Blank

/-! Trimming, and the cutting of text at blanks or at a separator. -/

namespace ValueNumbering.Text

def trimLeft (text : List Char) : List Char := text.dropWhile isBlank

def trimRight (text : List Char) : List Char := (text.reverse.dropWhile isBlank).reverse

def trim (text : List Char) : List Char := trimRight (trimLeft text)

def words : List Char → List (List Char)
  | [] => []
  | c :: rest =>
      if isBlank c then words rest
      else match rest with
        | [] => [[c]]
        | next :: _ =>
            if isBlank next then [c] :: words rest
            else match words rest with
              | [] => [[c]]
              | word :: more => (c :: word) :: more

def unwords (ws : List (List Char)) : List Char := [' '].intercalate ws

/-- One spelling for all texts with the same words. -/
def collapse (text : List Char) : List Char := unwords (words text)

def separate (separator : Char) : List Char → List (List Char)
  | [] => [[]]
  | c :: rest =>
      if c = separator then [] :: separate separator rest
      else match separate separator rest with
        | [] => [[c]]
        | part :: more => (c :: part) :: more

theorem trimLeft_of_blank {c : Char} (blank : isBlank c = true) (text : List Char) :
    trimLeft (c :: text) = trimLeft text := by
  simp [trimLeft, blank]

theorem trimLeft_of_not_blank {c : Char} (solid : isBlank c = false) (text : List Char) :
    trimLeft (c :: text) = c :: text := by
  simp [trimLeft, solid]

theorem words_of_blank {c : Char} (blank : isBlank c = true) (text : List Char) :
    words (c :: text) = words text := by
  simp [words, blank]

theorem words_ne_nil_of_not_blank {c : Char} (solid : isBlank c = false) (text : List Char) :
    words (c :: text) ≠ [] := by
  unfold words
  simp only [solid, Bool.false_eq_true, if_false]
  split
  · simp
  · split
    · simp
    · split <;> simp

theorem word_ne_nil {text word : List Char} (member : word ∈ words text) : word ≠ [] := by
  induction text generalizing word with
  | nil => simp [words] at member
  | cons c rest ih =>
      unfold words at member
      split at member
      · exact ih member
      · split at member
        · simp_all
        · split at member
          · rcases List.mem_cons.mp member with rfl | later
            · simp
            · exact ih later
          · split at member
            · simp_all
            · next more cut =>
                rcases List.mem_cons.mp member with rfl | later
                · simp
                · exact ih (cut ▸ List.mem_cons_of_mem _ later)

end ValueNumbering.Text

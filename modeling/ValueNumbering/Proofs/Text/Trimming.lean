import Mathlib.Data.List.Basic
import Mathlib.Data.List.TakeWhile
import ValueNumbering.Text.Words

/-! Text without blanks around it, and what trimming makes of such text with something in front or
behind. -/

namespace ValueNumbering.Text

/-- Neither the first character nor the last one is blank. -/
structure Trimmed (text : List Char) : Prop where
  first : ∀ c, text.head? = some c → isBlank c = false
  last : ∀ c, text.getLast? = some c → isBlank c = false

def Solid (text : List Char) : Prop := ∀ c ∈ text, isBlank c = false

instance (text : List Char) : Decidable (Solid text) := List.decidableBAll _ text

theorem Solid.trimmed {text : List Char} (solid : Solid text) : Trimmed text :=
  ⟨fun c isFirst => solid c (List.mem_of_mem_head? isFirst), fun c isLast =>
    solid c (List.mem_of_getLast? isLast)⟩

theorem Solid.append {first second : List Char} (left : Solid first) (right : Solid second) :
    Solid (first ++ second) := by
  intro c member
  rcases List.mem_append.mp member with here | there
  · exact left c here
  · exact right c there

theorem trimLeft_eq_self {text : List Char} (first : ∀ c, text.head? = some c → isBlank c = false) :
    trimLeft text = text := by
  cases text with
  | nil => rfl
  | cons c rest => exact trimLeft_of_not_blank (first c rfl) rest

theorem trimLeft_append_solid {c : Char} (solid : isBlank c = false) (front rest : List Char) :
    trimLeft (front ++ c :: rest) = trimLeft front ++ c :: rest := by
  induction front with
  | nil => exact trimLeft_of_not_blank solid rest
  | cons d more ih =>
      cases blank : isBlank d with
      | true => rw [List.cons_append, trimLeft_of_blank blank, trimLeft_of_blank blank, ih]
      | false => rw [List.cons_append, trimLeft_of_not_blank blank, trimLeft_of_not_blank blank,
          List.cons_append]

theorem trimLeft_append {text : List Char} (left : trimLeft text ≠ []) (rest : List Char) :
    trimLeft (text ++ rest) = trimLeft text ++ rest := by
  have more : (text.dropWhile isBlank).isEmpty = false := List.isEmpty_eq_false_iff.mpr left
  rw [trimLeft, List.dropWhile_append, more, if_neg (by decide), trimLeft]

theorem trimLeft_append_of_nil {text : List Char} (none : trimLeft text = []) (rest : List Char) :
    trimLeft (text ++ rest) = trimLeft rest := by
  have all : (text.dropWhile isBlank).isEmpty = true := List.isEmpty_iff.mpr none
  rw [trimLeft, List.dropWhile_append, all, if_pos rfl, trimLeft]

theorem head?_trimLeft (text : List Char) :
    ∀ c, (trimLeft text).head? = some c → isBlank c = false := by
  intro c isFirst
  induction text with
  | nil => cases isFirst
  | cons d rest ih =>
      cases blank : isBlank d with
      | true => exact ih (trimLeft_of_blank blank rest ▸ isFirst)
      | false =>
          rw [trimLeft_of_not_blank blank] at isFirst
          cases isFirst
          exact blank

theorem trimRight_eq (text : List Char) : trimRight text = (trimLeft text.reverse).reverse := rfl

theorem trimRight_eq_self {text : List Char}
    (last : ∀ c, text.getLast? = some c → isBlank c = false) :
    trimRight text = text := by
  rw [trimRight_eq, trimLeft_eq_self (by simpa using last), List.reverse_reverse]

theorem getLast?_trimRight (text : List Char) :
    ∀ c, (trimRight text).getLast? = some c → isBlank c = false := by
  rw [trimRight_eq, List.getLast?_reverse]
  exact head?_trimLeft _

theorem isPrefix_trimRight (text : List Char) : trimRight text <+: text := by
  have suffix := List.dropWhile_suffix isBlank (l := text.reverse)
  simpa [trimRight] using List.reverse_prefix.mpr suffix

theorem trimmed_trim (text : List Char) : Trimmed (trim text) := by
  refine ⟨?_, getLast?_trimRight _⟩
  intro c isFirst
  obtain ⟨rest, whole⟩ := List.head?_eq_some_iff.mp isFirst
  obtain ⟨more, inside⟩ := isPrefix_trimRight (trimLeft text)
  have here : (trimLeft text).head? = some c := by
    rw [← inside, show trimRight (trimLeft text) = c :: rest from whole]
    rfl
  exact head?_trimLeft text c here

namespace Trimmed

variable {text : List Char}

theorem trim_eq (trimmed : Trimmed text) : trim text = text := by
  rw [trim, trimLeft_eq_self trimmed.first, trimRight_eq_self trimmed.last]

theorem trim_append_blank (trimmed : Trimmed text) {c : Char} (blank : isBlank c = true) :
    trim (text ++ [c]) = text := by
  cases text with
  | nil => simp [trim, trimLeft, trimRight, blank]
  | cons first rest =>
      rw [trim, trimLeft_eq_self (by simpa using trimmed.first), trimRight_eq, List.reverse_append,
        List.reverse_singleton, List.singleton_append, trimLeft_of_blank blank, ← trimRight_eq,
          trimRight_eq_self trimmed.last]

end Trimmed

def Blanks (text : List Char) : Prop := ∀ c ∈ text, isBlank c = true

instance (text : List Char) : Decidable (Blanks text) :=
  decidable_of_iff (text.all isBlank = true) List.all_eq_true

theorem trimLeft_blanks {text : List Char} (blanks : Blanks text) (rest : List Char) :
    trimLeft (text ++ rest) = trimLeft rest :=
  List.dropWhile_append_of_pos blanks

theorem trimRight_split (text : List Char) :
    ∃ blanks, text = trimRight text ++ blanks ∧ Blanks blanks := by
  refine ⟨(text.reverse.takeWhile isBlank).reverse, ?_, fun c member => ?_⟩
  · calc text
      _ = text.reverse.reverse := (List.reverse_reverse text).symm
      _ = (text.reverse.takeWhile isBlank ++ text.reverse.dropWhile isBlank).reverse := by
        rw [List.takeWhile_append_dropWhile]
      _ = trimRight text ++ (text.reverse.takeWhile isBlank).reverse := by
        rw [List.reverse_append, trimRight]
  · exact List.mem_takeWhile_imp (List.mem_reverse.mp member)

theorem trimRight_blanks {text : List Char} (blanks : Blanks text) (front : List Char) :
    trimRight (front ++ text) = trimRight front := by
  rw [trimRight_eq, List.reverse_append, trimLeft_blanks fun c member =>
    blanks c (List.mem_reverse.mp member), ← trimRight_eq]

/-- Blanks on both sides are taken off. -/
theorem Trimmed.trim_surrounded {before text after : List Char} (blankBefore : Blanks before)
    (trimmed : Trimmed text) (blankAfter : Blanks after) :
    trim (before ++ (text ++ after)) = text := by
  rw [trim, trimLeft_blanks blankBefore]
  cases text with
  | nil =>
      have nothing := trimLeft_blanks blankAfter []
      rw [List.append_nil] at nothing
      rw [List.nil_append, nothing]
      rfl
  | cons first rest => rw [trimLeft_eq_self (by simpa using trimmed.first),
      trimRight_blanks blankAfter, trimRight_eq_self trimmed.last]

theorem trim_of_blank {c : Char} (blank : isBlank c = true) (text : List Char) :
    trim (c :: text) = trim text := by
  rw [trim, trimLeft_of_blank blank, trim]

theorem trim_append_blanks {blanks : List Char} (blank : Blanks blanks) (text : List Char) :
    trim (text ++ blanks) = trim text := by
  induction text with
  | nil =>
      have nothing := trimLeft_blanks blank []
      rw [List.append_nil] at nothing
      rw [List.nil_append, trim, nothing]
      rfl
  | cons c rest ih =>
      cases isBlank : isBlank c with
      | true => rw [List.cons_append, trim_of_blank isBlank, trim_of_blank isBlank, ih]
      | false =>
          rw [List.cons_append, trim, trimLeft_of_not_blank isBlank, ← List.cons_append,
            trimRight_blanks blank, trim, trimLeft_of_not_blank isBlank]

section Characters

variable {c : Char}

theorem count_trimLeft (solid : isBlank c = false) (text : List Char) :
    (trimLeft text).count c = text.count c := by
  induction text with
  | nil => rfl
  | cons d rest ih =>
      cases blank : isBlank d with
      | true =>
          have other : d ≠ c := by
            rintro rfl
            simp [solid] at blank
          rw [trimLeft_of_blank blank, ih, List.count_cons_of_ne other]
      | false => rw [trimLeft_of_not_blank blank]

theorem count_trimRight (solid : isBlank c = false) (text : List Char) :
    (trimRight text).count c = text.count c := by
  rw [trimRight_eq, List.count_reverse, count_trimLeft solid, List.count_reverse]

theorem count_trim (solid : isBlank c = false) (text : List Char) :
    (trim text).count c = text.count c := by
  rw [trim, count_trimRight solid, count_trimLeft solid]

theorem trimRight_append_solid (solid : isBlank c = false) (front rest : List Char) :
    trimRight (front ++ c :: rest) = front ++ c :: trimRight rest := by
  have reversed : (front ++ c :: rest).reverse = rest.reverse ++ c :: front.reverse := by simp
  rw [trimRight_eq, reversed, trimLeft_append_solid solid, trimRight_eq]
  simp

end Characters

end ValueNumbering.Text

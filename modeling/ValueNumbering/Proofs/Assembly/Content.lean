import ValueNumbering.Proofs.Assembly.NameText
import ValueNumbering.Proofs.Assembly.Steps
import ValueNumbering.Proofs.Text.Lines

/-!
What counts of the lines of a text. Such a line has no comment and no blanks around it, and it
counts whole when it is read again.
-/

namespace ValueNumbering.Assembly

open Text

/-- Text that neither begins a comment nor opens or closes quotes. -/
def Quiet (text : List Char) : Prop := ∀ c ∈ text, c ≠ '"' ∧ c ≠ ';'

instance (text : List Char) : Decidable (Quiet text) := List.decidableBAll _ text

theorem Quiet.append {first second : List Char} (left : Quiet first) (right : Quiet second) :
    Quiet (first ++ second) := by
  intro c member
  rcases List.mem_append.mp member with here | there
  · exact left c here
  · exact right c there

theorem IsName.quiet {text : List Char} (name : IsName text) : Quiet text := fun c member =>
  ⟨ne_of_isNameChar (name.within c member) (by decide),
    ne_of_isNameChar (name.within c member) (by decide)⟩

theorem stripComment_append {front : List Char} (quiet : Quiet front) (inQuotes : Bool)
    (rest : List Char) :
    stripComment inQuotes (front ++ rest) = front ++ stripComment inQuotes rest := by
  induction front with
  | nil => rfl
  | cons c more ih =>
      obtain ⟨noQuote, noComment⟩ := quiet c (List.mem_cons_self ..)
      simp only [List.cons_append, stripComment, noQuote, noComment, if_false, false_and,
        List.cons.injEq, true_and]
      exact ih fun d member => quiet d (List.mem_cons_of_mem _ member)

theorem stripComment_stripComment (inQuotes : Bool) (text : List Char) :
    stripComment inQuotes (stripComment inQuotes text) = stripComment inQuotes text := by
  induction text generalizing inQuotes with
  | nil => rfl
  | cons c rest ih =>
      by_cases quote : c = '"'
      · simp [stripComment, quote, ih]
      · by_cases comment : c = ';' ∧ inQuotes = false
        · simp [stripComment, comment]
        · simp [stripComment, quote, comment, ih]

theorem stripComment_of_prefix {inQuotes : Bool} {front rest : List Char}
    (whole : stripComment inQuotes (front ++ rest) = front ++ rest) :
    stripComment inQuotes front = front := by
  induction front generalizing inQuotes with
  | nil => rfl
  | cons c more ih =>
      rw [List.cons_append, stripComment] at whole
      rw [stripComment]
      split at whole
      · next quote => simp [quote, ih (List.cons.inj whole).2]
      · next noQuote =>
          split at whole
          · cases whole
          · next noComment => simp [noQuote, noComment, ih (List.cons.inj whole).2]

theorem quiet_of_isBlank {c : Char} (blank : isBlank c = true) : c ≠ '"' ∧ c ≠ ';' := by
  constructor <;> rintro rfl <;> revert blank <;> decide

theorem stripComment_trimLeft (inQuotes : Bool) (text : List Char) :
    stripComment inQuotes (trimLeft text) = trimLeft (stripComment inQuotes text) := by
  induction text with
  | nil => rfl
  | cons c rest ih =>
      cases blank : isBlank c with
      | true =>
          obtain ⟨noQuote, noComment⟩ := quiet_of_isBlank blank
          rw [trimLeft_of_blank blank, ih]
          simp [stripComment, noQuote, noComment, trimLeft_of_blank blank]
      | false =>
          rw [trimLeft_of_not_blank blank, trimLeft_eq_self]
          intro d isFirst
          rw [stripComment] at isFirst
          split at isFirst
          · cases isFirst
            exact blank
          · split at isFirst
            · cases isFirst
            · cases isFirst
              exact blank

theorem stripComment_content (text : List Char) :
    stripComment false (content text) = content text := by
  have whole : stripComment false (trimLeft (stripComment false text)) =
      trimLeft (stripComment false text) := by
    rw [stripComment_trimLeft, stripComment_stripComment]
  obtain ⟨more, inside⟩ := isPrefix_trimRight (trimLeft (stripComment false text))
  rw [← inside] at whole
  exact stripComment_of_prefix whole

theorem content_content (text : List Char) : content (content text) = content text := by
  rw [content, stripComment_content]
  exact (trimmed_trim _).trim_eq

theorem isPrefix_stripComment (inQuotes : Bool) (text : List Char) :
    stripComment inQuotes text <+: text := by
  induction text generalizing inQuotes with
  | nil => exact List.prefix_refl _
  | cons c rest ih =>
      rw [stripComment]
      split
      · exact List.prefix_cons_inj c |>.mpr (ih _)
      · split
        · exact List.nil_prefix
        · exact List.prefix_cons_inj c |>.mpr (ih _)

theorem mem_of_mem_content {text : List Char} {c : Char}
    (member : c ∈ content text) : c ∈ text := by
  have left : c ∈ trimLeft (stripComment false text) := (isPrefix_trimRight _).subset member
  have uncut : c ∈ stripComment false text := (List.dropWhile_suffix isBlank).subset left
  exact (isPrefix_stripComment false text).subset uncut

/-- A line that counts as it is: without comment, blanks around it or a line end in it. -/
structure Bare (line : List Char) : Prop where
  content : content line = line
  within : Unbroken line

namespace Bare

variable {line : List Char}

theorem of_trimmed (trimmed : Trimmed line) (uncommented : stripComment false line = line)
    (within : Unbroken line) : Bare line :=
  ⟨by rw [Assembly.content, uncommented, trimmed.trim_eq], within⟩

theorem trimmed (bare : Bare line) : Trimmed line := bare.content ▸ trimmed_trim _

theorem uncommented (bare : Bare line) : stripComment false line = line :=
  bare.content ▸ stripComment_content line

end Bare

/-- Text that stays whole on a line, with whatever stands around it. -/
structure Plain (text : List Char) : Prop where
  quiet : Quiet text
  unbroken : Unbroken text

instance (text : List Char) : Decidable (Plain text) :=
  decidable_of_iff (Quiet text ∧ Unbroken text)
    ⟨fun both => ⟨both.1, both.2⟩, fun plain => ⟨plain.quiet, plain.unbroken⟩⟩

namespace Plain

variable {text other : List Char}

theorem append (left : Plain text) (right : Plain other) : Plain (text ++ other) :=
  ⟨left.quiet.append right.quiet, left.unbroken.append right.unbroken⟩

theorem of_solid (solid : Solid text) (quiet : Quiet text) : Plain text := ⟨quiet, solid.unbroken⟩

theorem bare (plain : Plain text) (trimmed : Trimmed text) : Bare text := by
  have uncommented : stripComment false (text ++ []) = text ++ [] :=
    stripComment_append plain.quiet false []
  rw [List.append_nil] at uncommented
  exact .of_trimmed trimmed uncommented plain.unbroken

theorem intercalate {separator : List Char} (between : Plain separator) {items : List (List Char)}
    (each : ∀ item ∈ items, Plain item) : Plain (separator.intercalate items) := by
  induction items with
  | nil => exact ⟨by simp [Quiet], by simp⟩
  | cons item more ih =>
      have here := each item (List.mem_cons_self ..)
      have rest := ih fun other member => each other (List.mem_cons_of_mem _ member)
      cases more with
      | nil => simpa using here
      | cons next others =>
          rw [List.intercalate_cons_cons]
          exact (here.append between).append rest

end Plain

theorem IsName.plain {text : List Char} (name : IsName text) : Plain text :=
  .of_solid name.solid name.quiet

theorem content_of_blank {c : Char} (blank : isBlank c = true) (text : List Char) :
    content (c :: text) = content text := by
  obtain ⟨noQuote, noComment⟩ := quiet_of_isBlank blank
  rw [content, stripComment, if_neg noQuote, if_neg (by simp [noComment]), trim_of_blank blank,
    content]

def contents (ls : List (List Char)) : List (List Char) := (ls.map content).filter (!·.isEmpty)

@[simp] theorem contents_append (ls more : List (List Char)) :
    contents (ls ++ more) = contents ls ++ contents more := by
  simp [contents]

theorem contents_cons_empty {line : List Char} (empty : content line = []) (ls : List (List Char)) :
    contents (line :: ls) = contents ls := by
  simp [contents, empty]

theorem contents_cons {line : List Char} (nonempty : content line ≠ []) (ls : List (List Char)) :
    contents (line :: ls) = content line :: contents ls := by
  simp [contents, nonempty]

theorem contentTexts_eq (text : String) :
    contentTexts text = ((lines text.toList).map content).filter (!·.isEmpty) := by
  have numbered : ∀ (ls : List (List Char)) n,
      ((((ls.zipIdx n).map fun entry => (entry.2, entry.1)).map fun entry =>
      (entry.1, content entry.2)).filter fun entry => !entry.2.isEmpty).map (·.2) =
        (ls.map content).filter (!·.isEmpty) := by
    intro ls
    induction ls with
    | nil => intro n; rfl
    | cons line rest ih =>
        intro n
        cases empty : (content line).isEmpty <;> simp [empty] <;> simpa using ih (n + 1)
  exact numbered _ 1

theorem bare_of_mem_contentTexts {text : String} {line : List Char}
    (member : line ∈ contentTexts text) : Bare line := by
  rw [contentTexts_eq] at member
  obtain ⟨raw, isRaw, rfl⟩ := List.mem_map.mp (List.mem_filter.mp member).1
  exact ⟨content_content raw, fun c inside =>
    unbroken_of_mem_lines isRaw c (mem_of_mem_content inside)⟩

def counted (ls : List String) : List (List Char) :=
  (ls.map fun line => content line.toList).filter (!·.isEmpty)

theorem contentTexts_unlines {ls : List String} (within : ∀ line ∈ ls, Unbroken line.toList) :
    contentTexts (unlines ls) = counted ls := by
  rw [contentTexts_eq, lines_unlines within, List.map_map]
  rfl

theorem counted_eq (ls : List String) : counted ls = contents (ls.map (·.toList)) := by
  rw [counted, contents, List.map_map]
  rfl

@[simp] theorem counted_append (ls more : List String) :
    counted (ls ++ more) = counted ls ++ counted more := by
  simp [counted_eq]

theorem counted_cons_empty {line : String} (empty : content line.toList = []) (ls : List String) :
    counted (line :: ls) = counted ls := by
  rw [counted_eq, List.map_cons, contents_cons_empty empty, counted_eq]

theorem counted_cons {line : String} {text : List Char} (counts : content line.toList = text)
    (nonempty : text ≠ []) (ls : List String) : counted (line :: ls) = text :: counted ls := by
  simp [counted, counts, nonempty]

end ValueNumbering.Assembly

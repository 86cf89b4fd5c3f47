import Mathlib.Algebra.Group.Nat.Even
import ValueNumbering.Proofs.Assembly.Content
import ValueNumbering.Proofs.Assembly.LineNumbers

/-!
Comments and blank lines say nothing. A line without content only moves the numbers of the lines
after it, and a comment behind a line that leaves no quotes open, or that has a comment already,
leaves its content as it is.
-/

namespace ValueNumbering.Assembly

open Text

def endsQuoted (inQuotes : Bool) : List Char → Bool
  | [] => inQuotes
  | c :: rest => endsQuoted (if c = '"' then !inQuotes else inQuotes) rest

theorem endsQuoted_eq_false_iff (inQuotes : Bool) (text : List Char) :
    endsQuoted inQuotes text = false ↔ (Even (text.count '"') ↔ inQuotes = false) := by
  induction text generalizing inQuotes with
  | nil => simp [endsQuoted]
  | cons c rest ih =>
      rw [endsQuoted, ih]
      by_cases quote : c = '"'
      · cases inQuotes <;> simp [quote, Nat.even_add_one]
      · simp [quote]

theorem endsQuoted_of_even {text : List Char} (even : Even (text.count '"')) :
    endsQuoted false text = false :=
  (endsQuoted_eq_false_iff false text).mpr (by simp [even])

theorem stripComment_append_whole {inQuotes : Bool} {text : List Char}
    (whole : stripComment inQuotes text = text) (rest : List Char) :
    stripComment inQuotes (text ++ rest) =
      text ++ stripComment (endsQuoted inQuotes text) rest := by
  induction text generalizing inQuotes with
  | nil => rfl
  | cons c more ih =>
      rw [stripComment] at whole
      rw [List.cons_append, stripComment, endsQuoted]
      split at whole
      · next quote => rw [if_pos quote, if_pos quote, ih (List.cons.inj whole).2, List.cons_append]
      · next noQuote =>
          split at whole
          · cases whole
          · next noComment => rw [if_neg noQuote, if_neg noComment, if_neg noQuote,
              ih (List.cons.inj whole).2, List.cons_append]

theorem stripComment_append_cut {inQuotes : Bool} {text : List Char}
    (cut : stripComment inQuotes text ≠ text) (rest : List Char) :
    stripComment inQuotes (text ++ rest) = stripComment inQuotes text := by
  induction text generalizing inQuotes with
  | nil => exact absurd rfl cut
  | cons c more ih =>
      rw [stripComment] at cut
      rw [List.cons_append, stripComment, stripComment]
      split at cut
      · next quote => rw [if_pos quote, if_pos quote, ih fun whole => cut (by rw [whole])]
      · next noQuote =>
          split at cut
          · next comment => rw [if_neg noQuote, if_neg noQuote, if_pos comment, if_pos comment]
          · next noComment =>
              rw [if_neg noQuote, if_neg noQuote, if_neg noComment, if_neg noComment,
                ih fun whole => cut (by rw [whole])]

/-- The line has a semicolon with an even number of quotes before it. -/
def HasComment (line : List Char) : Prop :=
  ∃ before after, line = before ++ ';' :: after ∧ Even (before.count '"')

theorem stripComment_of_no_comment {inQuotes : Bool} {line : List Char}
    (none : ∀ before after, line = before ++ ';' :: after → endsQuoted inQuotes before = true) :
    stripComment inQuotes line = line := by
  induction line generalizing inQuotes with
  | nil => rfl
  | cons c rest ih =>
      have later : stripComment (if c = '"' then !inQuotes else inQuotes) rest = rest := by
        refine ih fun before after split => ?_
        have here := none (c :: before) after (by rw [split, List.cons_append])
        rwa [endsQuoted] at here
      rw [stripComment]
      split
      · next quote =>
          rw [if_pos quote] at later
          rw [later]
      · next noQuote =>
          rw [if_neg noQuote] at later
          rw [if_neg, later]
          rintro ⟨rfl, outside⟩
          have quoted := none [] rest rfl
          rw [endsQuoted, outside] at quoted
          cases quoted

theorem stripComment_eq_self_iff (line : List Char) :
    stripComment false line = line ↔ ¬HasComment line := by
  constructor
  · rintro whole ⟨before, after, rfl, even⟩
    have uncommented : stripComment false before = before := stripComment_of_prefix whole
    have front := stripComment_append_whole uncommented (';' :: after)
    rw [whole, endsQuoted_of_even even, stripComment, if_neg (by decide),
      if_pos ⟨rfl, rfl⟩] at front
    simp at front
  · intro none
    refine stripComment_of_no_comment fun before after split => ?_
    by_contra outside
    have even := (endsQuoted_eq_false_iff false before).mp (Bool.eq_false_iff.mpr outside)
    exact none ⟨before, after, split, even.mpr rfl⟩

theorem content_append_comment {line blanks : List Char} (blank : Blanks blanks)
    (closed : HasComment line ∨ Even (line.count '"')) (text : List Char) :
    content (line ++ (blanks ++ ';' :: text)) = content line := by
  by_cases whole : stripComment false line = line
  · have even : Even (line.count '"') :=
      closed.resolve_left ((stripComment_eq_self_iff line).mp whole)
    have quiet : Quiet blanks := fun c member => quiet_of_isBlank (blank c member)
    have cut : stripComment false (';' :: text) = [] := by
      rw [stripComment, if_neg (by decide), if_pos ⟨rfl, rfl⟩]
    rw [content, stripComment_append_whole whole, endsQuoted_of_even even,
      stripComment_append quiet, cut, List.append_nil, trim_append_blanks blank, content, whole]
  · rw [content, stripComment_append_cut whole, content]

theorem content_append_quiet {line more : List Char} (uncommented : ¬HasComment line)
    (nonempty : content line ≠ []) (quiet : Quiet more)
    (last : ∀ c, (trimLeft line ++ more).getLast? = some c → isBlank c = false) :
    ∃ blanks, Blanks blanks ∧ content (line ++ more) = content line ++ (blanks ++ more) := by
  have whole := (stripComment_eq_self_iff line).mpr uncommented
  have whole' : stripComment false (line ++ more) = line ++ more := by
    have quietly : stripComment (endsQuoted false line) (more ++ []) = more ++ [] :=
      stripComment_append quiet _ []
    rw [List.append_nil] at quietly
    rw [stripComment_append_whole whole, quietly]
  have left : trimLeft line ≠ [] := by
    intro none
    apply nonempty
    rw [content, whole, trim, none]
    rfl
  obtain ⟨blanks, split, blank⟩ := trimRight_split (trimLeft line)
  refine ⟨blanks, blank, ?_⟩
  calc content (line ++ more)
    _ = trimRight (trimLeft line ++ more) := by rw [content, whole', trim, trimLeft_append left]
    _ = trimLeft line ++ more := trimRight_eq_self last
    _ = content line ++ (blanks ++ more) := by
      rw [content, whole, trim, ← List.append_assoc, ← split]

/-- A line that is blank or has a semicolon for its first character that is not. -/
def IsVoid (line : List Char) : Prop := ∀ c, (trimLeft line).head? = some c → c = ';'

theorem IsVoid.content {line : List Char} (void : IsVoid line) : content line = [] := by
  have nothing : stripComment false (trimLeft line) = [] := by
    cases front : trimLeft line with
    | nil => rfl
    | cons c rest =>
        obtain rfl := void c (by rw [front]; rfl)
        rw [stripComment, if_neg (by decide), if_pos ⟨rfl, rfl⟩]
  rw [Assembly.content, trim, ← stripComment_trimLeft, nothing]
  rfl

def numberedContents (first : Nat) : List (List Char) → List (Nat × List Char)
  | [] => []
  | line :: rest =>
      if (content line).isEmpty then numberedContents (first + 1) rest
      else (first, content line) :: numberedContents (first + 1) rest

theorem contentLines_eq (text : List Char) :
    contentLines text = numberedContents 1 (lines text) := by
  have counted : ∀ (ls : List (List Char)) first,
      ((((ls.zipIdx first).map fun entry => (entry.2, entry.1)).map fun entry =>
      (entry.1, content entry.2)).filter fun entry =>
        !entry.2.isEmpty) = numberedContents first ls := by
    intro ls
    induction ls with
    | nil => intro first; rfl
    | cons line rest ih =>
        intro first
        cases empty : (content line).isEmpty <;> simp [numberedContents, empty] <;>
          simpa using ih (first + 1)
  exact counted _ 1

theorem numberedContents_append (first : Nat) (ls more : List (List Char)) :
    numberedContents first (ls ++ more) =
      numberedContents first ls ++ numberedContents (first + ls.length) more := by
  induction ls generalizing first with
  | nil => rfl
  | cons line rest ih =>
      have next : first + 1 + rest.length = first + (line :: rest).length := by
        rw [List.length_cons]
        omega
      rw [List.cons_append, numberedContents, numberedContents, ih, next]
      split <;> rfl

theorem numberedContents_bounds {first : Nat} {ls : List (List Char)} :
    ∀ entry ∈ numberedContents first ls, first ≤ entry.1 ∧ entry.1 < first + ls.length := by
  induction ls generalizing first with
  | nil => simp [numberedContents]
  | cons line rest ih =>
      intro entry member
      rw [List.length_cons]
      rw [numberedContents] at member
      split at member
      · have := ih entry member
        omega
      · rcases List.mem_cons.mp member with rfl | later
        · omega
        · have := ih entry later
          omega

theorem numberedContents_succ (first : Nat) (ls : List (List Char)) :
    numberedContents (first + 1) ls = (numberedContents first ls).map fun entry =>
      (entry.1 + 1, entry.2) := by
  induction ls generalizing first with
  | nil => rfl
  | cons line rest ih =>
      rw [numberedContents, numberedContents, ih]
      split <;> simp

/-- An edit that says nothing, with the new numbers of the lines that were there. -/
inductive Edit : List (List Char) → List (List Char) → (Nat → Nat) → Prop
  | insert (before after : List (List Char)) {line : List Char} (void : IsVoid line) :
      Edit (before ++ after) (before ++ line :: after) fun n => if n ≤ before.length then n
        else n + 1
  | comment (before after : List (List Char)) {line blanks : List Char} (text : List Char)
      (blank : Blanks blanks)
      (closed : HasComment line ∨ Even (line.count '"')) :
      Edit (before ++ line :: after) (before ++ (line ++ (blanks ++ ';' :: text)) :: after) id

inductive Edits : List (List Char) → List (List Char) → (Nat → Nat) → Prop
  | none (ls : List (List Char)) : Edits ls ls id
  | more {ls between last : List (List Char)} {place next : Nat → Nat}
      (earlier : Edits ls between place)
      (edit : Edit between last next) : Edits ls last (next ∘ place)

theorem Edit.numberedContents {ls last : List (List Char)} {place : Nat → Nat}
    (edit : Edit ls last place) :
    numberedContents 1 last = (Assembly.numberedContents 1 ls).map fun entry =>
      (place entry.1, entry.2) := by
  cases edit with
  | @insert before after line void =>
      have empty : (content line).isEmpty = true := List.isEmpty_iff.mpr void.content
      have earlier : (Assembly.numberedContents 1 before).map (fun entry =>
          ((if entry.1 ≤ before.length then entry.1 else entry.1 + 1), entry.2)) =
            Assembly.numberedContents 1 before := by
        refine (List.map_congr_left fun entry member => ?_).trans (List.map_id _)
        have bounds := numberedContents_bounds entry member
        rw [if_pos (by omega)]
        rfl
      have later : (Assembly.numberedContents (1 + before.length) after).map (fun entry =>
          ((if entry.1 ≤ before.length then entry.1 else entry.1 + 1), entry.2)) =
            (Assembly.numberedContents (1 + before.length) after).map fun entry =>
              (entry.1 + 1, entry.2) := by
        refine List.map_congr_left fun entry member => ?_
        have bounds := numberedContents_bounds entry member
        rw [if_neg (by omega)]
      rw [numberedContents_append, numberedContents_append, Assembly.numberedContents, if_pos empty,
        List.map_append, earlier, later, ← numberedContents_succ]
  | comment before after text blank closed =>
      have same := content_append_comment blank closed text
      rw [numberedContents_append, numberedContents_append, Assembly.numberedContents,
        Assembly.numberedContents, same]
      simp

theorem Edits.numberedContents {ls last : List (List Char)} {place : Nat → Nat}
    (edits : Edits ls last place) :
    numberedContents 1 last = (Assembly.numberedContents 1 ls).map fun entry =>
      (place entry.1, entry.2) := by
  induction edits with
  | none => simp
  | more earlier edit ih =>
      rw [edit.numberedContents, ih, List.map_map]
      rfl

/-- A text that is edited so is read as before, but for the numbers of its lines. -/
theorem read_of_edits {text text' : String} {place : Nat → Nat}
    (edits : Edits (lines text.toList) (lines text'.toList) place) (name : String) :
    read text' name = renumbered place id (read text name) := by
  refine read_renumbered ?_ name
  rw [contentLines_eq, contentLines_eq, edits.numberedContents]

end ValueNumbering.Assembly

import ValueNumbering.Proofs.Assembly.AccessLines
import ValueNumbering.Proofs.Assembly.CommentEdits
import ValueNumbering.Proofs.Assembly.LinesRead

/-!
Metadata at the end of an instruction. It begins with a comma, which belongs to no name and no word,
so the line is cut where it would be cut without the metadata, and nothing but blanks is left of it
when it has been dropped.
-/

namespace ValueNumbering.Assembly

open Text

/-- A comma and an exclamation mark, with blanks before them and between them, and any text
behind. -/
def IsMetadata (text : List Char) : Prop :=
  ∃ blanks more, text = blanks ++ ',' :: more ∧ Blanks blanks ∧ (trimLeft more).head? = some '!'

namespace IsMetadata

variable {metadata : List Char}

theorem comma_mem (isMetadata : IsMetadata metadata) : ',' ∈ metadata := by
  obtain ⟨blanks, more, rfl, -⟩ := isMetadata
  exact List.mem_append_right _ (List.mem_cons_self ..)

theorem trimmed (isMetadata : IsMetadata metadata) :
    ∃ more, trimLeft metadata = ',' :: more ∧ IsMetadata (',' :: more) := by
  obtain ⟨blanks, more, rfl, blank, mark⟩ := isMetadata
  have isTrimmed : trimLeft (blanks ++ ',' :: more) = ',' :: more :=
    calc
      _ = trimLeft (',' :: more) := trimLeft_blanks blank _
      _ = ',' :: more := trimLeft_of_not_blank (by decide) more
  have noBlanks : Blanks [] := by decide
  exact ⟨more, isTrimmed, [], more, rfl, noBlanks, mark⟩

theorem stops (isMetadata : IsMetadata metadata) :
    ∀ c, metadata.head? = some c → isNameChar c = false := by
  obtain ⟨blanks, more, rfl, blank, -⟩ := isMetadata
  intro c first
  apply Bool.eq_false_iff.mpr
  intro inName
  cases blanks with
  | nil =>
      cases first
      exact absurd inName (by decide)
  | cons d others =>
      cases first
      have solid := isBlank_of_isNameChar inName
      rw [blank c (List.mem_cons_self ..)] at solid
      cases solid

theorem stops_word (isMetadata : IsMetadata metadata) :
    ∀ c, metadata.head? = some c → isWord c = false := by
  intro c first
  apply Bool.eq_false_iff.mpr
  intro inWord
  have inName : isNameChar c = true := by simp [isNameChar, inWord]
  rw [isMetadata.stops c first] at inName
  cases inName

theorem trimLeft_append (isMetadata : IsMetadata metadata) (text : List Char) :
    ∃ more, IsMetadata more ∧ trimLeft (text ++ metadata) = trimLeft text ++ more := by
  by_cases none : trimLeft text = []
  · obtain ⟨more, isTrimmed, isMore⟩ := isMetadata.trimmed
    refine ⟨_, isMore, ?_⟩
    rw [trimLeft_append_of_nil none, none, isTrimmed, List.nil_append]
  · exact ⟨metadata, isMetadata, Text.trimLeft_append none metadata⟩

section Cutting

variable {text name mnemonic rest : List Char} {result : Option (List Char)}

theorem name?_append (isMetadata : IsMetadata metadata) (found : name? text = some (name, rest)) :
    name? (text ++ metadata) = some (name, rest ++ metadata) := by
  obtain ⟨isName, rfl⟩ := name?_sound found
  have cut := span_append_stops isMetadata.stops (name ++ rest)
  unfold name? at found
  split at found
  · cases found
  · rw [Option.some.inj found] at cut
    unfold name?
    rw [cut]
    split
    · next same =>
        cases same
        exact absurd rfl isName.nonempty
    · rfl

theorem bound?_append (isMetadata : IsMetadata metadata) (found : bound? text = some (name, rest))
    (nonempty : rest ≠ []) :
    bound? (text ++ metadata) = some (name, rest ++ metadata) := by
  simp only [bound?, Option.bind_eq_bind, Option.bind_eq_some_iff] at found
  obtain ⟨⟨_, behind⟩, isName, after, isAfter, made⟩ := found
  cases made
  have sign : trimLeft behind = '=' :: after := after?_sound isAfter
  have signed : trimLeft (behind ++ metadata) = '=' :: (after ++ metadata) :=
    calc
      _ = trimLeft behind ++ metadata := Text.trimLeft_append (by simp [sign]) metadata
      _ = '=' :: (after ++ metadata) := by rw [sign, List.cons_append]
  have behindSign : trimLeft (after ++ metadata) = trimLeft after ++ metadata :=
    Text.trimLeft_append nonempty metadata
  simp [bound?, isMetadata.name?_append isName, signed, after?, behindSign]

theorem mnemonic?_append (isMetadata : IsMetadata metadata)
    (found : mnemonic? text = some (mnemonic, rest)) :
    mnemonic? (text ++ metadata) = some (mnemonic, rest ++ metadata) := by
  cases text with
  | nil => cases found
  | cons c more =>
      have cut := span_append_stops isMetadata.stops_word (c :: more)
      rw [mnemonic?] at found
      split at found
      · next begins =>
          rw [Option.some.inj found] at cut
          rw [List.cons_append, mnemonic?, if_pos begins, ← List.cons_append, cut]
      · cases found

theorem instruction?_append (isMetadata : IsMetadata metadata)
    (found : instruction? text = some (.instruction result mnemonic rest)) :
    ∃ more, IsMetadata more ∧ instruction? (text ++ metadata) =
      some (.instruction result mnemonic (rest ++ more)) := by
  unfold instruction? at found
  split at found
  case h_1 bare =>
    simp only [Option.bind_eq_bind, Option.bind_eq_some_iff] at found
    obtain ⟨⟨name, bare⟩, isBound, ⟨_, behind⟩, isMnemonic, made⟩ := found
    cases made
    have nonempty : bare ≠ [] := by
      rintro rfl
      cases isMnemonic
    obtain ⟨more, isMore, left⟩ := isMetadata.trimLeft_append behind
    refine ⟨more, isMore, ?_⟩
    have isMnemonic' := isMetadata.mnemonic?_append isMnemonic
    simp [instruction?, isMetadata.bound?_append isBound nonempty, isMnemonic', left]
  case h_2 unnamed =>
    simp only [Option.bind_eq_bind, Option.bind_eq_some_iff] at found
    obtain ⟨⟨_, behind⟩, isMnemonic, made⟩ := found
    cases made
    obtain ⟨more, isMore, left⟩ := isMetadata.trimLeft_append behind
    refine ⟨more, isMore, ?_⟩
    have unnamed' : ∀ rest, text ++ metadata = '%' :: rest → False := by
      intro rest whole
      cases text with
      | nil => cases isMnemonic
      | cons c others => exact unnamed others (by rw [(List.cons.inj whole).1])
    rw [instruction?.eq_2 _ unnamed', isMetadata.mnemonic?_append isMnemonic]
    simp [left]

theorem startsWith_append (isMetadata : IsMetadata metadata) {word : String}
    (isName : ∀ c ∈ word.toList, isNameChar c = true) (text : List Char) :
    startsWith word (text ++ metadata) = startsWith word text := by
  unfold startsWith
  generalize word.toList = front at isName
  induction front generalizing text with
  | nil => simp
  | cons c more ih =>
      obtain ⟨here, later⟩ := List.forall_mem_cons.mp isName
      cases text with
      | cons d others =>
        rw [List.cons_append, List.isPrefixOf_cons_cons, List.isPrefixOf_cons_cons, ih others later]
      | nil =>
          cases front : metadata with
          | nil => rfl
          | cons d others =>
              have different : c ≠ d := ne_of_isNameChar here
                (isMetadata.stops d (by rw [front]; rfl))
              simp [List.isPrefixOf_cons_cons, different]

theorem bodyLine_append (isMetadata : IsMetadata metadata)
    (read : BodyLine.read text = .ok (.instruction result mnemonic rest)) :
    ∃ more, IsMetadata more ∧ BodyLine.read (text ++ metadata) =
      .ok (.instruction result mnemonic (rest ++ more)) := by
  have comma : ',' ∈ text ++ metadata := List.mem_append_right _ isMetadata.comma_mem
  have notClose : text ++ metadata ≠ ['}'] := by
    intro same
    rw [same] at comma
    exact absurd comma (by decide)
  have noLabel : label? (text ++ metadata) = none := by
    unfold label?
    split
    · next name found =>
        obtain ⟨isName, whole⟩ := name?_sound found
        rw [whole] at comma
        rcases List.mem_append.mp comma with inName | inSign
        · exact absurd (isName.within ',' inName) (by decide)
        · exact absurd inSign (by decide)
    · rfl
  obtain ⟨found, notDefinition⟩ := instruction_read read
  obtain ⟨more, isMore, found'⟩ := isMetadata.instruction?_append found
  have letters : ∀ c ∈ "define".toList, isNameChar c = true := List.all_eq_true.mp (by decide)
  refine ⟨more, isMore, ?_⟩
  rw [BodyLine.read, if_neg notClose, noLabel]
  simp [found', isMetadata.startsWith_append letters, notDefinition]

end Cutting

theorem dropMetadata_blanks {blanks more : List Char} (blank : Blanks blanks)
    (mark : (trimLeft more).head? = some '!') :
    dropMetadata (blanks ++ ',' :: more) = blanks := by
  induction blanks with
  | nil =>
      rw [List.nil_append, dropMetadata]
      exact if_pos ⟨rfl, mark⟩
  | cons c others ih =>
      obtain ⟨here, later⟩ := List.forall_mem_cons.mp blank
      have noComma : ¬(c = ',' ∧ (trimLeft (others ++ ',' :: more)).head? = some '!') :=
        fun both => (uncut_of_isBlank here).1 both.1
      rw [List.cons_append, dropMetadata, if_neg noComma, ih later]

theorem head?_trimLeft_append (isMetadata : IsMetadata metadata) (text : List Char) :
    (trimLeft (text ++ metadata)).head? = some '!' ↔ (trimLeft text).head? = some '!' := by
  by_cases none : trimLeft text = []
  · obtain ⟨more, isTrimmed, -⟩ := isMetadata.trimmed
    rw [trimLeft_append_of_nil none, none, isTrimmed]
    simp
  · rw [Text.trimLeft_append none, List.head?_append_of_ne_nil _ none]

theorem dropMetadata_append (isMetadata : IsMetadata metadata) (text : List Char) :
    ∃ blanks, Blanks blanks ∧ dropMetadata (text ++ metadata) = dropMetadata text ++ blanks := by
  induction text with
  | nil =>
      obtain ⟨blanks, more, rfl, blank, mark⟩ := isMetadata
      exact ⟨blanks, blank, dropMetadata_blanks blank mark⟩
  | cons c rest ih =>
      obtain ⟨blanks, blank, dropped⟩ := ih
      rw [List.cons_append, dropMetadata, dropMetadata]
      by_cases found : c = ',' ∧ (trimLeft rest).head? = some '!'
      · rw [if_pos found, if_pos ⟨found.1, (isMetadata.head?_trimLeft_append rest).mpr found.2⟩]
        exact ⟨[], by decide, rfl⟩
      · rw [if_neg found, if_neg fun both =>
          found ⟨both.1, (isMetadata.head?_trimLeft_append rest).mp both.2⟩]
        exact ⟨blanks, blank, congrArg (c :: ·) dropped⟩

end IsMetadata

theorem cutAtCommas_append_blanks {blanks : List Char} (blank : Blanks blanks) (depth : Int)
    (text : List Char) :
    ∃ front last, cutAtCommas depth text = front ++ [last] ∧
      cutAtCommas depth (text ++ blanks) = front ++ [last ++ blanks] := by
  induction text generalizing depth with
  | nil =>
      have uncut : Uncut blanks := fun c member => uncut_of_isBlank (blank c member)
      have whole : cutAtCommas depth (blanks ++ []) = [blanks ++ []] :=
        (uncut.passes depth).cutAtCommas_append rfl
      rw [List.append_nil] at whole
      exact ⟨[], [], rfl, whole⟩
  | cons c rest ih =>
      rw [List.cons_append, cutAtCommas, cutAtCommas]
      split
      · obtain ⟨front, last, cut, cut'⟩ := ih depth
        exact ⟨[] :: front, last, by rw [cut]; rfl, by rw [cut']; rfl⟩
      · obtain ⟨front, last, cut, cut'⟩ := ih (depthAfter depth c)
        rw [cut, cut']
        cases front with
        | nil => exact ⟨[], c :: last, rfl, rfl⟩
        | cons piece more => exact ⟨(c :: piece) :: more, last, rfl, rfl⟩

theorem pieces_append_blanks {blanks : List Char} (blank : Blanks blanks) (text : List Char) :
    pieces (text ++ blanks) = pieces text := by
  obtain ⟨front, last, cut, cut'⟩ := cutAtCommas_append_blanks blank 0 text
  have items : (front ++ [last ++ blanks]).map trim = (front ++ [last]).map trim := by
    rw [List.map_append, List.map_append, List.map_singleton, List.map_singleton,
      trim_append_blanks blank]
  rw [pieces, pieces, cut, cut', items]

theorem statement_of_pieces {text text' : List Char}
    (same : pieces (dropMetadata text) = pieces (dropMetadata text')) (line : Nat)
    (opcode : Opcode) : Statement.read line opcode text = Statement.read line opcode text' := by
  simp only [Statement.read, readStore, readLoad, readAlloca, readBinary, same]

/-- Metadata is in no statement. -/
theorem IsMetadata.statement_append {metadata : List Char} (isMetadata : IsMetadata metadata)
    (line : Nat) (opcode : Opcode) (text : List Char) :
    Statement.read line opcode (text ++ metadata) = Statement.read line opcode text := by
  obtain ⟨blanks, blank, dropped⟩ := isMetadata.dropMetadata_append text
  apply statement_of_pieces
  rw [dropped, pieces_append_blanks blank]

end ValueNumbering.Assembly

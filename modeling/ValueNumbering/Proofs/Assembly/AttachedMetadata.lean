import ValueNumbering.Proofs.Assembly.ChangedText
import ValueNumbering.Proofs.Assembly.MetadataText
import ValueNumbering.Proofs.Assembly.OperationLines
import ValueNumbering.Proofs.Assembly.Outline
import ValueNumbering.Proofs.Assembly.Refusals

/-!
What comments, blank lines and metadata mean to a text that is read. The first two leave everything
as it is but the numbers of the lines; metadata behind an operation is kept in the text of the
instruction and found nowhere else.
-/

namespace ValueNumbering.Assembly

open Text

/-- A comma, then a kind of metadata and the number of a node, each after an exclamation mark. -/
def attachment (kind number : List Char) : List Char :=
  ", !".toList ++ (kind ++ (" !".toList ++ number))

section Attachment

variable {kind number : List Char}

theorem isMetadata_attachment {blanks : List Char} (blank : Blanks blanks)
    (kind number : List Char) :
    IsMetadata (blanks ++ attachment kind number) :=
  ⟨blanks, " !".toList ++ (kind ++ (" !".toList ++ number)), rfl, blank, rfl⟩

theorem quiet_attachment (isKind : IsName kind) (decimals : Integer.Decimals number) :
    Quiet (attachment kind number) := by
  have signs : Quiet ", !".toList ∧ Quiet " !".toList := by decide
  have digits : Quiet number := by
    intro c member
    have decimal := decimals c member
    constructor <;> rintro rfl <;> exact absurd decimal (by decide)
  exact signs.1.append (isKind.quiet.append (signs.2.append digits))

theorem getLast?_attachment (front : List Char) (decimals : Integer.Decimals number)
    (nonempty : number ≠ []) :
    ∀ c, (front ++ attachment kind number).getLast? = some c → isBlank c = false := by
  intro c isLast
  have inNumber : number.getLast? = some c := by
    rwa [attachment, ← List.append_assoc, ← List.append_assoc, ← List.append_assoc,
      List.getLast?_append_of_ne_nil _ nonempty]
      at isLast
  exact Integer.isBlank_of_isDecimal (decimals c (List.mem_of_getLast? inNumber))

end Attachment

theorem Reader.Step.attach {r next : Reader} {line : Nat} {text metadata : List Char}
    (step : Reader.Step r line text next) (operation : HoldsOperation text)
    (isMetadata : IsMetadata metadata) :
    ∃ next', Reader.Step r line (text ++ metadata) next' ∧
      next.Retexted (String.ofList text) (String.ofList (text ++ metadata)) next' := by
  cases step with
  | skip outside form | declare outside form | global outside form | begin outside form =>
      exact absurd operation (not_holdsOperation_outside form)
  | close inside form | label inside form =>
      obtain ⟨_, _, _, body, -⟩ := operation
      cases body.symm.trans form
  | instruction inside form ensured targeted stated filled =>
      obtain ⟨more, isMore, form'⟩ := isMetadata.bodyLine_append form
      obtain ⟨⟨block, isOpen⟩, -⟩ := Draft.ensureBlock_ok ensured
      have stated' := (isMore.statement_append line _ _).trans stated
      refine ⟨_, .instruction inside form' ensured targeted stated' rfl, .current rfl ?_⟩
      rw [filled]
      exact .of_append isOpen (fill_retexted ..)

/-- The second text is the first with metadata attached to one line, an operation without a
comment. -/
structure Attached (text text' : String) (line kind number : List Char) : Prop where
  inserted : ∃ before after, lines text.toList = before ++ line :: after ∧
    lines text'.toList = before ++ (line ++ attachment kind number) :: after
  uncommented : ¬HasComment line
  operation : HoldsOperation (content line)
  isKind : IsName kind
  decimals : Integer.Decimals number
  nonempty : number ≠ []

namespace Attached

variable {text text' : String} {line kind number : List Char}

theorem content_ne_nil (attached : Attached text text' line kind number) : content line ≠ [] := by
  intro empty
  obtain ⟨_, _, _, body, -⟩ := attached.operation
  rw [empty] at body
  cases body

theorem content_eq (attached : Attached text text' line kind number) :
    ∃ metadata, IsMetadata metadata ∧
    content (line ++ attachment kind number) = content line ++ metadata := by
  obtain ⟨blanks, blank, whole⟩ := content_append_quiet attached.uncommented attached.content_ne_nil
    (quiet_attachment attached.isKind attached.decimals)
      (getLast?_attachment (trimLeft line) attached.decimals attached.nonempty)
  exact ⟨_, isMetadata_attachment blank kind number, whole⟩

/-- The lines that count are the same in both texts but for one, and they have the same numbers. -/
theorem contentLines_eq (attached : Attached text text' line kind number) : ∃ before place after,
    contentLines text.toList = before ++ (place, content line) :: after ∧
      contentLines text'.toList = before ++ (place, content (line ++ attachment kind number)) ::
        after := by
  obtain ⟨before, after, isText, isText'⟩ := attached.inserted
  obtain ⟨metadata, -, whole⟩ := attached.content_eq
  have counts := attached.content_ne_nil
  have counts' : content (line ++ attachment kind number) ≠ [] := by simp [whole, counts]
  refine ⟨numberedContents 1 before, 1 + before.length,
    numberedContents (1 + before.length + 1) after, ?_, ?_⟩
  · rw [Assembly.contentLines_eq, isText, numberedContents_append, numberedContents,
      if_neg (by simpa using counts)]
  · rw [Assembly.contentLines_eq, isText', numberedContents_append, numberedContents,
      if_neg (by simpa using counts')]

theorem read_eq (attached : Attached text text' line kind number) {name : String} {m : Module}
    (accepted : read text name = .ok m) :
    ∃ m', read text' name = .ok m' ∧
      m.Retexted (String.ofList (content line))
        (String.ofList (content (line ++ attachment kind number))) m' := by
  obtain ⟨metadata, isMetadata, whole⟩ := attached.content_eq
  obtain ⟨before, place, after, entries, entries'⟩ := attached.contentLines_eq
  obtain ⟨last, readAll, finished⟩ := bind_eq_ok.mp accepted
  rw [entries] at readAll
  obtain ⟨r, readBefore, readOn⟩ := Reader.readLines_split readAll
  obtain ⟨next, readHere, readAfter⟩ := bind_eq_ok.mp readOn
  obtain ⟨next', step', changed⟩ :=
    (Reader.step_of_readLine readHere).attach attached.operation isMetadata
  rw [← whole] at step' changed
  obtain ⟨last', readAfter', changed'⟩ := changed.readLines readAfter
  obtain ⟨m', finished', retexted⟩ := changed'.finish finished
  refine ⟨m', bind_eq_ok.mpr ⟨last', ?_, finished'⟩, retexted⟩
  rw [entries']
  exact Reader.readLines_append readBefore
    (bind_eq_ok.mpr ⟨next', Reader.readLine_of_step step', readAfter'⟩)

end Attached

/-- Comments and blank lines change nothing but the numbers of the lines. Metadata attached to an
operation changes nothing but the text of its instruction, and no number depends on that. -/
theorem comments_and_metadata_say_nothing :
    (∀ (text text' : String) (place : Nat → Nat),
      Edits (lines text.toList) (lines text'.toList) place →
      ∀ name, read text' name = renumbered place id (read text name)) ∧
    ∀ (text text' : String) (line kind number : List Char), Attached text text' line kind number →
      ∀ (name : String) (m : Module), read text name = .ok m → ∃ m', read text' name = .ok m' ∧
        m.Retexted (String.ofList (content line))
          (String.ofList (content (line ++ attachment kind number))) m' ∧
        m'.functions.map (fun fn => fn.instructions.map lineOf) = instructionLines text' ∧
        ∀ settings, List.Forall₂ (fun fn fn' =>
          (Numbering.ofFunction settings fn).DecidedAlike (Numbering.ofFunction settings fn'))
          m.functions m'.functions := by
  constructor
  · intro text text' place edits name
    exact read_of_edits edits name
  · intro text text' line kind number attached name m accepted
    obtain ⟨m', accepted', retexted⟩ := attached.read_eq accepted
    exact ⟨m', accepted', retexted, lines_of_read accepted', retexted.decidedAlike⟩

def plainText (last : String) : String :=
  "define i32 @f(ptr %p) \x7b\n  store i32 1, ptr %p, align 4  \n" ++ last ++ "\n\x7d"

def notedText (last : String) : String :=
  "; a \"note\ndefine i32 @f(ptr %p) \x7b\n\t\n  store i32 1, ptr %p, align 4   ; \"kept\n" ++
    last ++ "\n\x7d"

def attachedText (last : String) : String :=
  "define i32 @f(ptr %p) \x7b\n  store i32 1, ptr %p, align 4  , !dbg !12\n" ++ last ++ "\n\x7d"

theorem notes_say_nothing :
    (∃ place, Edits (lines (plainText "  %b = add i32 %a, 1").toList)
      (lines (notedText "  %b = add i32 %a, 1").toList) place ∧
      read (plainText "  %b = add i32 %a, 1") "f" = .error (.refused 3 (.undefinedValue "a")) ∧
      read (notedText "  %b = add i32 %a, 1") "f" =
        .error (.refused (place 3) (.undefinedValue "a")) ∧ place 3 = 5) ∧
    Attached (plainText "  ret i32 1") (attachedText "  ret i32 1")
      "  store i32 1, ptr %p, align 4  ".toList "dbg".toList "12".toList ∧
      ∃ m m', read (plainText "  ret i32 1") "f" = .ok m ∧
        read (attachedText "  ret i32 1") "f" = .ok m' ∧
        m.Retexted "store i32 1, ptr %p, align 4" "store i32 1, ptr %p, align 4  , !dbg !12"
          m' := by
  have refused : read (plainText "  %b = add i32 %a, 1") "f" =
      .error (.refused 3 (.undefinedValue "a")) :=
    error_of_fault? (by decide +kernel)
  have isRead : (read (plainText "  ret i32 1") "f").toOption.isSome = true := by decide +kernel
  constructor
  · let header := "define i32 @f(ptr %p) \x7b".toList
    let store := "  store i32 1, ptr %p, align 4  ".toList
    let rest := ["  %b = add i32 %a, 1".toList, "\x7d".toList]
    let note := "; a \"note".toList
    have plain : lines (plainText "  %b = add i32 %a, 1").toList = header :: store :: rest := by
      decide +kernel
    have noted : lines (notedText "  %b = add i32 %a, 1").toList =
        note :: header :: "\t".toList :: (store ++ (" ".toList ++ "; \"kept".toList)) :: rest := by
      decide +kernel
    have void : IsVoid note := fun c isFirst => (Option.some.inj isFirst).symm
    have void' : IsVoid "\t".toList := fun c isFirst => nomatch isFirst
    have blank : Blanks " ".toList := by decide
    have even : Even (store.count '"') := by decide
    have first : Edits (header :: store :: rest) (note :: header :: store :: rest) _ :=
      .more (.none _) (.insert [] _ void)
    have second := first.more (.comment [note, header] rest " \"kept".toList blank (Or.inr even))
    have third := second.more (.insert [note, header] _ void')
    have edited : ∃ place, place 3 = 5 ∧
        Edits (lines (plainText "  %b = add i32 %a, 1").toList)
          (lines (notedText "  %b = add i32 %a, 1").toList) place := by
      rw [plain, noted]
      exact ⟨_, rfl, third⟩
    obtain ⟨place, moved, edits⟩ := edited
    refine ⟨place, edits, refused, ?_, moved⟩
    rw [comments_and_metadata_say_nothing.1 _ _ _ edits, refused]
    rfl
  · have attached : Attached (plainText "  ret i32 1") (attachedText "  ret i32 1")
        "  store i32 1, ptr %p, align 4  ".toList
        "dbg".toList "12".toList :=
      ⟨⟨["define i32 @f(ptr %p) \x7b".toList], ["  ret i32 1".toList, "\x7d".toList],
        by decide +kernel, by decide +kernel⟩, (stripComment_eq_self_iff _).mp (by decide),
        ⟨none, "store".toList, "i32 1, ptr %p, align 4".toList, by decide +kernel, by decide⟩,
          by decide, by decide, by decide⟩
    obtain ⟨m, isRead⟩ := Option.isSome_iff_exists.mp isRead
    have accepted := ok_of_toOption isRead
    obtain ⟨m', accepted', retexted, -⟩ :=
      comments_and_metadata_say_nothing.2 _ _ _ _ _ attached "f" m accepted
    exact ⟨attached, m, m', accepted, accepted', retexted⟩

end ValueNumbering.Assembly

import ValueNumbering.Proofs.Assembly.FunctionAlone
import ValueNumbering.Proofs.Assembly.ParameterLists
import ValueNumbering.Proofs.Assembly.ParameterSlots
import ValueNumbering.Proofs.Assembly.Refusals
import ValueNumbering.Proofs.Text.CommaLists

/-!
The slots that a function takes where its text does not write them. The parameters without names
take the first ones, and a block without a label the next one. Parameters whose types end in a
marked word are the exception, as such a word is taken for a name.
-/

namespace ValueNumbering.Assembly

open Text

def HeaderWith (params : List DeclaredParameter) (line : List Char) : Prop :=
  ∃ returnType name paramsText, TopLine.read line = .ok (.definition returnType name paramsText) ∧
    pieces paramsText = params.map (·.text)

/-- Inside a function with these parameters, before its first block. -/
structure Opened (params : List DeclaredParameter) (r : Reader) (draft : Draft) : Prop where
  inside : r.draft = some draft
  names : NamedInOrder params (draft.arguments.map (·.name))
  slot : draft.slot = slots params
  empty : draft.blockNames = []

def entryName? (params : List DeclaredParameter) : BodyLine → Option String
  | .close => none
  | .label label => some (String.ofList label)
  | .instruction .. => some (toString (slots params))

/-- The slots that are taken with the first line of the body. -/
def slotsWith (params : List DeclaredParameter) : BodyLine → Nat
  | .close | .label _ => slots params
  | .instruction .. => slots params + 1

section Header

variable {params : List DeclaredParameter} {line : List Char}

theorem HeaderWith.isHeader (header : HeaderWith params line) : IsHeader line := by
  obtain ⟨returnType, name, paramsText, form, -⟩ := header
  exact ⟨returnType, name, paramsText, form⟩

theorem DeclaredParameter.nonempty (param : DeclaredParameter) : param.text ≠ [] := by
  obtain ⟨text, naming, spelled⟩ := param
  rintro rfl
  cases spelled with
  | unnamed typed notDots => exact typed rfl
  | named typed isText | numbered typed isText => simp [words] at isText

theorem IsSignatureText.headerWith {head name tail : List Char} {padded : List (List Char)}
    (parts : IsSignatureText head name ([','].intercalate padded) tail) (noClosing : ')' ∉ tail)
    (around : List.Forall₂ Padded (params.map (·.text)) padded)
    (areItems : ∀ param ∈ params, IsListItem param.text) :
    HeaderWith params (content (definedWith head name ([','].intercalate padded) tail)) := by
  refine ⟨_, _, _, parts.definition_iff.mpr noClosing, pieces_intercalate_padded around ?_ ?_⟩
  · exact List.forall_mem_map.mpr areItems
  · intro last isLast
    obtain ⟨param, -, rfl⟩ := List.mem_map.mp (List.mem_of_mem_getLast? isLast)
    exact param.nonempty

theorem DeclaredInOrder.fitsAt (declared : DeclaredInOrder params) (unmistaken : Unmistaken params)
    (before : List DeclaredParameter) (param : DeclaredParameter) (after : List DeclaredParameter)
    (split : params = before ++ param :: after) : param.FitsAt (slots before) := by
  unfold DeclaredParameter.FitsAt
  cases naming : param.naming with
  | variadic | named => trivial
  | unnamed => exact unmistaken before param after split naming
  | numbered number => exact declared.inPlace before param after number split naming

theorem DeclaredInOrder.ready (declared : DeclaredInOrder params) (unmistaken : Unmistaken params)
    (names : Names) :
    Ready {} names.newFunction [] params where
  accounted := .newFunction names
  settled := rfl
  fits := by
    intro before param after split
    rw [Nat.zero_add]
    exact declared.fitsAt unmistaken before param after split
  new := by
    rw [List.nil_append]
    exact nodup_namesFrom declared.distinct 0

theorem HeaderWith.parameters_read (header : HeaderWith params line) {r next : Reader}
    {number : Nat} (read : r.readLine number line = .ok next) :
    ∃ (signature : Signature) (names : Names) (draft : Draft),
      addPieces number {} r.names.newFunction (params.map (·.text)) = .ok (signature, names) ∧
        next.draft = some draft ∧
      draft.arguments = signature.arguments := by
  obtain ⟨returnType, name, paramsText, form, isList⟩ := header
  obtain ⟨-, signature, names, parameters, rfl⟩ := (Reader.step_of_readLine read).begins form
  rw [readParameters, isList] at parameters
  exact ⟨signature, names, _, parameters, rfl, rfl⟩

/-- The line is accepted, with the names and slots that are meant, where no parameter is mistaken
and every slot has a number that can be written. -/
theorem opened_iff_unmistaken (declared : DeclaredInOrder params) (header : HeaderWith params line)
    {r : Reader} (outside : r.draft = none) (number : Nat) :
    (∃ next draft, r.readLine number line = .ok next ∧ Opened params next draft) ↔
      Unmistaken params ∧ slots params ≤ Nat.pow 10 Integer.digitLimit := by
  constructor
  · rintro ⟨next, draft, read, opened⟩
    obtain ⟨signature, names, draft', added, inside, arguments⟩ := header.parameters_read read
    cases opened.inside.symm.trans inside
    have unmistaken : Unmistaken params := by
      rintro before param after rfl naming name last
      have byLast := named_by_last added (by simp [naming, Naming.isArgument]) last
      have bySlot := opened.names.slot before param after rfl (by simp [naming, Naming.takesSlot])
      rw [arguments, byLast] at bySlot
      have same := congrArg String.toList (Option.some.inj bySlot)
      rwa [String.toList_ofList] at same
    have few := (declared.ready unmistaken r.names).slots_le (Nat.zero_le _) added
    exact ⟨unmistaken, by rwa [Nat.zero_add] at few⟩
  · rintro ⟨unmistaken, few⟩
    obtain ⟨signature, names, adds⟩ :=
      (declared.ready unmistaken r.names).adds (by rwa [Nat.zero_add]) number
    obtain ⟨returnType, name, paramsText, form, isList⟩ := header
    have parameters : readParameters number r.names.newFunction paramsText =
        .ok (signature, names) := by
      rw [readParameters, isList]
      exact adds.read
    refine ⟨_, _, Reader.readLine_of_step (.begin outside form parameters), rfl, ?_, ?_, rfl⟩
    · rw [adds.arguments, List.map_nil, List.nil_append]
      exact namedInOrder_namesFrom params
    · rw [adds.slot, Nat.zero_add]

theorem HeaderWith.opened (header : HeaderWith params line) (declared : DeclaredInOrder params)
    (unmistaken : Unmistaken params) {r next : Reader} {number : Nat} (outside : r.draft = none)
    (read : r.readLine number line = .ok next) :
    ∃ draft, Opened params next draft := by
  obtain ⟨signature, names, _, added, -⟩ := header.parameters_read read
  have few := (declared.ready unmistaken r.names).slots_le (Nat.zero_le _) added
  rw [Nat.zero_add] at few
  obtain ⟨next', draft, read', opened⟩ :=
    (opened_iff_unmistaken declared header outside number).mpr ⟨unmistaken, few⟩
  cases read.symm.trans read'
  exact ⟨draft, opened⟩

end Header

theorem Draft.ensureBlock_of_no_blocks {draft ready : Draft} (none : draft.blockNames = [])
    (ensured : draft.ensureBlock = .ok ready) :
    ready = { draft.openBlock (toString draft.slot) with slot := draft.slot + 1 } := by
  rw [ensureBlock, current_of_no_blocks none] at ensured
  obtain ⟨name, written, named⟩ := bind_eq_ok.mp ensured
  obtain rfl : toString draft.slot = name :=
    Except.ok.inj ((slotText_of_lt (lt_of_slotText written)).symm.trans written)
  exact (Except.ok.inj named).symm

section Body

variable {params : List DeclaredParameter} {r next : Reader} {draft : Draft} {body : List Char}
    {first : BodyLine} {entry : String}

theorem Opened.enters (opened : Opened params r draft) {number : Nat}
    (form : BodyLine.read body = .ok first) (isEntry : entryName? params first = some entry)
    (read : r.readLine number body = .ok next) :
    ∃ after, next.draft = some after ∧ after.blockNames = [entry] ∧
      after.slot = slotsWith params first := by
  cases Reader.step_of_readLine read with
  | skip outside | declare outside | global outside | begin outside =>
    cases outside.symm.trans opened.inside
  | close _ other =>
      cases form.symm.trans other
      cases isEntry
  | label inside other =>
      cases inside.symm.trans opened.inside
      cases form.symm.trans other
      cases isEntry
      exact ⟨_, rfl, by rw [Draft.openBlock_blockNames, opened.empty]; rfl, opened.slot⟩
  | instruction inside other ensured =>
      cases inside.symm.trans opened.inside
      cases form.symm.trans other
      cases isEntry
      obtain rfl := Draft.ensureBlock_of_no_blocks opened.empty ensured
      refine ⟨_, rfl, ?_, ?_⟩
      · rw [Draft.append_blockNames, ← opened.slot]
        exact (draft.openBlock_blockNames _).trans (by rw [opened.empty]; rfl)
      · rw [slotsWith, ← opened.slot]
        rfl

theorem contents_blanks {blanks : List (List Char)} (blank : ∀ line ∈ blanks, content line = [])
    (rest : List (List Char)) :
    contents (throughClose (blanks ++ rest)) = contents (throughClose rest) := by
  induction blanks with
  | nil => rfl
  | cons line more ih =>
      have empty := blank line (List.mem_cons_self ..)
      rw [List.cons_append, throughClose, if_neg (by simp [empty]), contents_cons_empty empty]
      exact ih fun other member => blank other (List.mem_cons_of_mem _ member)

theorem exists_contents_throughClose {raw : List Char} (nonempty : content raw ≠ [])
    (more : List (List Char)) :
    ∃ others, contents (throughClose (raw :: more)) = content raw :: others := by
  rw [throughClose]
  split
  · exact ⟨contents [], contents_cons nonempty []⟩
  · exact ⟨contents (throughClose more), contents_cons nonempty _⟩

theorem content_ne_nil_of_read {raw : List Char} (form : BodyLine.read (content raw) = .ok first) :
    content raw ≠ [] := by
  intro empty
  rw [empty] at form
  cases form

end Body

/-- The names of a function with these parameters, whose first line stands before the others. -/
structure SlotsFollow (params : List DeclaredParameter) (rest : List (List Char)) (fn : Function) :
    Prop where
  arguments : NamedInOrder params (fn.arguments.map (·.name))
  entry : ∀ blanks body more first entry, rest = blanks ++ body :: more →
    (∀ line ∈ blanks, content line = []) →
    BodyLine.read (content body) = .ok first → entryName? params first = some entry →
    (fn.blocks.map (·.name)).head? = some entry

theorem slotsFollow_of_read {params : List DeclaredParameter} (declared : DeclaredInOrder params)
    (unmistaken : Unmistaken params) {text name : String} {m : Module}
    (accepted : read text name = .ok m) {before rest : List (List Char)} {line : List Char}
    (isText : lines text.toList = before ++ line :: rest)
    (header : HeaderWith params (content line)) :
    ∃ fn, m.functions[functionsIn before]? = some fn ∧ SlotsFollow params rest fn := by
  obtain ⟨fn, r, after, number, function⟩ := exists_bodyRead accepted isText header.isHeader
  obtain ⟨draft, opened⟩ := header.opened declared unmistaken function.outside function.header
  obtain ⟨others, next, areOthers, behind, added⟩ := function.body
  refine ⟨fn, function.isFunction, ?_, ?_⟩
  · obtain ⟨last, extended, rfl⟩ := Reader.extends_of_readLines opened.inside behind added
    rw [Draft.function, extended.arguments]
    exact opened.names
  · rintro blanks body more firstLine entry rfl blank form isEntry
    rw [contents_blanks blank] at areOthers
    obtain ⟨left, areLeft⟩ := exists_contents_throughClose (content_ne_nil_of_read form) more
    rw [areLeft] at areOthers
    obtain ⟨⟨number', _⟩, entries, rfl, rfl, -⟩ := List.map_eq_cons_iff.mp areOthers
    obtain ⟨entered, one, readRest⟩ := bind_eq_ok.mp behind
    obtain ⟨draft', inside, names, -⟩ := opened.enters form isEntry one
    have stays : entered.functions = after.functions := by
      rcases (Reader.step_of_readLine one).inside (by simp [opened.inside]) with
        ⟨-, closed, -⟩ | ⟨-, -, stays⟩
      · simp [inside] at closed
      · exact stays
    rw [← stays] at added
    obtain ⟨last, extended, rfl⟩ := Reader.extends_of_readLines inside readRest added
    obtain ⟨others, isFront⟩ := extended.blocks
    rw [names] at isFront
    exact congrArg List.head? isFront.symm

/-- A line that is written with these parameters begins a function with them. Outside of a function
it is accepted, with every name that is meant and the slot for the next block, exactly where no
parameter is mistaken for one with a name, and every slot has a number that can be written. Then the
first line of the body opens the block that is meant, and takes a slot if it has no label; and the
function of an accepted text has these names. -/
theorem slots_follow_iff_unmistaken {params : List DeclaredParameter}
    (declared : DeclaredInOrder params) :
    (∀ (head name tail : List Char) (padded : List (List Char)),
      IsSignatureText head name ([','].intercalate padded) tail →
      ')' ∉ tail → List.Forall₂ Padded (params.map (·.text)) padded →
        (∀ param ∈ params, IsListItem param.text) →
      HeaderWith params (content (definedWith head name ([','].intercalate padded) tail))) ∧
    ∀ line : List Char, HeaderWith params (content line) →
      (∀ (r : Reader) (number : Nat), r.draft = none →
        ((∃ next draft, r.readLine number (content line) = .ok next ∧ Opened params next draft) ↔
          Unmistaken params ∧ slots params ≤ Nat.pow 10 Integer.digitLimit)) ∧
      (∀ (r next : Reader) (draft : Draft) (number : Nat) (body : List Char) (first : BodyLine)
        (entry : String),
        Opened params r draft → BodyLine.read body = .ok first →
          entryName? params first = some entry →
        r.readLine number body = .ok next →
        ∃ after, next.draft = some after ∧ after.blockNames = [entry] ∧
          after.slot = slotsWith params first) ∧
      (Unmistaken params → ∀ (text name : String) (m : Module) (before rest : List (List Char)),
        read text name = .ok m →
        lines text.toList = before ++ line :: rest →
        ∃ fn, m.functions[functionsIn before]? = some fn ∧ SlotsFollow params rest fn) := by
  refine ⟨?_, fun line header => ⟨?_, ?_, ?_⟩⟩
  · intro head name tail padded parts noClosing around areItems
    exact parts.headerWith noClosing around areItems
  · intro r number outside
    exact opened_iff_unmistaken declared header outside number
  · intro r next draft number body first entry opened form isEntry read
    exact opened.enters form isEntry read
  · intro unmistaken text name m before rest accepted isText
    exact slotsFollow_of_read declared unmistaken accepted isText header

/-- Parameters of every kind. One without a name begins with a marked word, but does not end in
it. -/
def mixedParameters : List DeclaredParameter := [
  ⟨"i32 noundef %a".toList, .named "a".toList,
    @Naming.Spelled.named _ _ ["i32".toList, "noundef".toList] (by decide) (by decide)
    (by simp [IsNumeric]; decide)⟩,
  ⟨"%pair align 8".toList, .unnamed, .unnamed (by decide) (by decide)⟩,
  ⟨"i64 %1".toList, .numbered 1,
    @Naming.Spelled.numbered _ _ ["i64".toList] (by decide) (by decide)⟩,
  ⟨"<2 x i32>".toList, .unnamed, .unnamed (by decide) (by decide)⟩,
  ⟨"...".toList, .variadic, .variadic⟩]

def mixedPadded : List (List Char) :=
  ["i32 noundef %a ", " %pair align 8", " i64 %1", " <2 x i32>", " ..."].map (·.toList)

def mixedHeader : String :=
  "define internal i32 @mix(i32 noundef %a , %pair align 8, i64 %1, <2 x i32>, ...) #0 \x7b"

def mixedText : String :=
  unlines ["declare void @g(i32)", mixedHeader, "", "  ; no label", "  %x = load i32, ptr %1",
    "  ret i32 %x", "\x7d"]

theorem mixedParameters_named :
    (∃ next draft, Reader.readLine {} 1 (content mixedHeader.toList) = .ok next ∧
      Opened mixedParameters next draft) ∧
    ∃ m fn, read mixedText = .ok m ∧ m.functions[1]? = some fn ∧
      NamedInOrder mixedParameters (fn.arguments.map (·.name)) ∧
      (fn.blocks.map (·.name)).head? = some "3" := by
  have declared : DeclaredInOrder mixedParameters := by decide +kernel
  have unmistaken : Unmistaken mixedParameters := by decide +kernel
  have few : slots mixedParameters ≤ Nat.pow 10 Integer.digitLimit := by decide +kernel
  have parts : IsSignatureText "internal i32".toList "mix".toList ([','].intercalate mixedPadded)
      " #0 ".toList := {
    isHead := ⟨by decide, .of_all (by decide) (by decide)⟩
    quietHead := by decide
    quietParams := by decide +kernel
    quietTail := by decide
    noBrace := by decide }
  have around : List.Forall₂ Padded (mixedParameters.map (·.text)) mixedPadded := by
    have texts : mixedParameters.map (·.text) = mixedPadded.map trim := by decide +kernel
    rw [texts]
    exact List.forall₂_map_left_iff.mpr (List.forall₂_same.mpr fun piece _ => padded_trim piece)
  have areItems : ∀ param ∈ mixedParameters, IsListItem param.text := by decide +kernel
  obtain ⟨written, follows⟩ := slots_follow_iff_unmistaken declared
  have header := written _ _ _ _ parts (by decide) around areItems
  have isHeader : definedWith "internal i32".toList "mix".toList ([','].intercalate mixedPadded)
      " #0 ".toList =
      mixedHeader.toList := by decide +kernel
  rw [isHeader] at header
  obtain ⟨opens, -, named⟩ := follows mixedHeader.toList header
  refine ⟨(opens {} 1 rfl).mpr ⟨unmistaken, few⟩, ?_⟩
  have isRead : (read mixedText).toOption.isSome = true := by decide +kernel
  obtain ⟨m, isModule⟩ := Option.isSome_iff_exists.mp isRead
  have accepted := ok_of_toOption isModule
  let rest : List (List Char) :=
    ["", "  ; no label", "  %x = load i32, ptr %1", "  ret i32 %x", "\x7d"].map (·.toList)
  have isText : lines mixedText.toList =
      ["declare void @g(i32)".toList] ++ mixedHeader.toList :: rest := by decide +kernel
  obtain ⟨fn, isFunction, follow⟩ := named unmistaken mixedText "<stdin>" m _ rest accepted isText
  have index : functionsIn ["declare void @g(i32)".toList] = 1 := by decide +kernel
  rw [index] at isFunction
  have form : (BodyLine.read (content "  %x = load i32, ptr %1".toList)).toOption =
      some (.instruction (some ['x']) "load".toList "i32, ptr %1".toList) := by decide +kernel
  have entry := follow.entry (["", "  ; no label"].map (·.toList)) _ _ _ "3" rfl (by decide +kernel)
    (ok_of_toOption form) rfl
  exact ⟨m, fn, accepted, isFunction, follow.arguments, entry⟩

def structParameter : DeclaredParameter :=
  ⟨"%pair".toList, .unnamed, .unnamed (by decide) (by decide)⟩

def oneStructText : String := unlines ["define void @f(%pair) \x7b", "  ret void", "\x7d"]

def twoStructsText : String := unlines ["define void @f(%pair, %pair) \x7b", "  ret void", "\x7d"]

/-- The type is taken for a name, so no slot is counted; where the type comes again, the line is
refused. -/
theorem structTypes_mistaken :
    DeclaredInOrder [structParameter] ∧
      HeaderWith [structParameter] (content "define void @f(%pair) \x7b".toList) ∧
    (∃ m fn, read oneStructText = .ok m ∧ m.functions = [fn] ∧
      fn.arguments.map (·.name) = ["pair"] ∧
      ¬ NamedInOrder [structParameter] (fn.arguments.map (·.name)) ∧
        fn.blocks.map (·.name) = ["0"]) ∧
    DeclaredInOrder [structParameter, structParameter] ∧
    HeaderWith [structParameter, structParameter]
      (content "define void @f(%pair, %pair) \x7b".toList) ∧
    read twoStructsText = .error (.refused 1 (.redefinedArgument "pair")) := by
  have viewed : (read oneStructText).toOption.map (fun m => m.functions.map fun fn =>
      (fn.arguments.map (·.name), fn.blocks.map (·.name))) = some [(["pair"], ["0"])] := by
        decide +kernel
  obtain ⟨m, fn, accepted, only, view⟩ := exists_function_of_view viewed
  obtain ⟨arguments, blocks⟩ := Prod.mk.inj view
  have refused : fault? (read twoStructsText) = some (.refused 1 (.redefinedArgument "pair")) := by
    decide +kernel
  have one : (TopLine.read (content "define void @f(%pair) \x7b".toList)).toOption =
      some (.definition "void".toList ['f'] "%pair".toList) := by decide +kernel
  have two : (TopLine.read (content "define void @f(%pair, %pair) \x7b".toList)).toOption =
      some (.definition "void".toList ['f'] "%pair, %pair".toList) := by decide +kernel
  refine ⟨by decide +kernel, ⟨_, _, _, ok_of_toOption one, by decide +kernel⟩,
    ⟨m, fn, accepted, only, arguments, ?_, blocks⟩,
    by decide +kernel, ⟨_, _, _, ok_of_toOption two, by decide +kernel⟩, error_of_fault? refused⟩
  rw [arguments]
  intro named
  have taken := named.slot [] structParameter [] rfl rfl
  revert taken
  decide

end ValueNumbering.Assembly

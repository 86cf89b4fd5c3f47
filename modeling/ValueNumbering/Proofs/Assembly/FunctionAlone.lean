import ValueNumbering.Proofs.Assembly.Outline
import ValueNumbering.Proofs.Assembly.ReadingAlike
import ValueNumbering.Proofs.Assembly.RoundTrip

/-!
A function of an accepted text by itself. Its lines, from the first to the closing brace, are
accepted as a module of this one function, and it is numbered there as in the whole module.
-/

namespace ValueNumbering.Assembly

open Text

def throughClose : List (List Char) → List (List Char)
  | [] => []
  | line :: rest => if content line = ['}'] then [line] else line :: throughClose rest

def functionsIn (ls : List (List Char)) : Nat := (Outline.ofLines (contents ls)).functions.length

def IsHeader (line : List Char) : Prop :=
  ∃ returnType name params, TopLine.read line = .ok (.definition returnType name params)

theorem throughClose_prefix (ls : List (List Char)) : throughClose ls <+: ls := by
  induction ls with
  | nil => exact List.prefix_refl _
  | cons line rest ih =>
      rw [throughClose]
      split
      · exact ⟨rest, rfl⟩
      · exact List.prefix_cons_inj line |>.mpr ih

theorem contentTexts_of_lines {text : String} {before rest after : List (List Char)}
    {line : List Char} (isText : lines text.toList = before ++ line :: rest)
    (nonempty : content line ≠ []) (whole : throughClose rest ++ after = rest) :
    contentTexts text = contents before ++ content line ::
      (contents (throughClose rest) ++ contents after) :=
  calc contentTexts text
    _ = contents (lines text.toList) := contentTexts_eq text
    _ = contents before ++ contents (line :: rest) := by rw [isText, contents_append]
    _ = contents before ++ content line :: contents (throughClose rest ++ after) := by
      rw [contents_cons nonempty, whole]
    _ = contents before ++ content line :: (contents (throughClose rest) ++ contents after) := by
      rw [contents_append]

theorem definition?_of_read {line returnType name params : List Char}
    (read : TopLine.read line = .ok (.definition returnType name params)) :
    definition? line = some (.definition returnType name params) := by
  unfold TopLine.read at read
  split at read
  · cases read
  · split at read
    · next found =>
        cases read
        exact found
    · split at read
      · cases read
      · split at read
        · next found =>
            cases read
            obtain ⟨_, _, _, same, -⟩ := declaration?_sound found
            cases same
        · split at read
          · cases read
          · split at read
            · next found =>
                cases read
                simp [global?, Option.bind_eq_some_iff] at found
            · cases read

namespace IsHeader

variable {line : List Char}

theorem keyword (header : IsHeader line) :
    ∃ blank rest, line = "define".toList ++ blank :: rest ∧ isBlank blank = true := by
  obtain ⟨returnType, name, params, read⟩ := header
  have found := definition?_of_read read
  simp only [definition?, Option.bind_eq_bind, Option.bind_eq_some_iff] at found
  obtain ⟨_, signed, -⟩ := found
  simp only [signature?, Option.bind_eq_bind, Option.bind_eq_some_iff] at signed
  obtain ⟨rest, isRest, first, isFirst, signed⟩ := signed
  obtain ⟨more, rfl⟩ := List.head?_eq_some_iff.mp isFirst
  refine ⟨first, more, isPrefixOf?_sound isRest, ?_⟩
  split at signed
  · assumption
  · cases signed

theorem nonempty (header : IsHeader line) : line ≠ [] := by
  obtain ⟨blank, rest, rfl, -⟩ := header.keyword
  simp

theorem ne_close (header : IsHeader line) : line ≠ ['}'] := by
  obtain ⟨blank, rest, rfl, -⟩ := header.keyword
  simp

theorem not_body (header : IsHeader line) (body : BodyLine) : BodyLine.read line ≠ .ok body := by
  have notClose := header.ne_close
  obtain ⟨blank, rest, rfl, isBlank⟩ := header.keyword
  have keyword : startsWith "define" ("define".toList ++ blank :: rest) = true := by
    simp [startsWith]
  have isName : IsName "define".toList := .of_all (by decide) (by decide)
  have stops : ∀ c, (blank :: rest).head? = some c → isNameChar c = false := by
    intro c first
    cases first
    apply Bool.eq_false_iff.mpr
    intro inName
    simp [isBlank_of_isNameChar inName] at isBlank
  have noLabel : label? ("define".toList ++ blank :: rest) = none := by
    rw [label?, isName.name?_append stops]
    split
    · next same =>
        cases same
        simp [show Text.isBlank ':' = false by decide] at isBlank
    · rfl
  intro read
  rw [BodyLine.read, if_neg notClose, noLabel] at read
  simp only [keyword, if_true] at read
  split at read <;> cases read

end IsHeader

theorem close_of_read {line : List Char}
    (read : BodyLine.read line = .ok .close) : line = ['}'] := by
  unfold BodyLine.read at read
  split at read
  · assumption
  · split at read
    · cases read
    · split at read
      · next found =>
          obtain ⟨_, _, _, rfl⟩ := instruction?_sound found
          split at read <;> cases read
      · cases read

namespace Draft

def blockNames (draft : Draft) : List String := draft.blocks.map (·.name)

theorem current_of_no_blocks {draft : Draft} (none : draft.blockNames = []) :
    draft.current = .none := by
  simp only [blockNames, List.map_eq_nil_iff, blocks, List.append_eq_nil_iff,
    Option.toList_eq_nil_iff] at none
  exact none.2

theorem openBlock_blockNames (draft : Draft) (name : String) :
    (draft.openBlock name).blockNames = draft.blockNames ++ [name] := by
  simp [blockNames, openBlock, blocks]

theorem append_blockNames (draft : Draft) (inst : Instruction) :
    (draft.append inst).blockNames = draft.blockNames := by
  simp only [blockNames, blocks, append]
  cases draft.current <;> simp

/-- The same function later on. What its first line said stays, and so do the blocks so far. -/
structure Extends (later draft : Draft) : Prop where
  name : later.name = draft.name
  returnType : later.returnType = draft.returnType
  arguments : later.arguments = draft.arguments
  blocks : draft.blockNames <+: later.blockNames

namespace Extends

variable {draft later ready : Draft}

theorem refl (draft : Draft) : draft.Extends draft := ⟨rfl, rfl, rfl, List.prefix_refl _⟩

theorem openBlock (extended : later.Extends draft) (name : String) :
    (later.openBlock name).Extends draft where
  name := extended.name
  returnType := extended.returnType
  arguments := extended.arguments
  blocks := by
    rw [openBlock_blockNames]
    exact extended.blocks.trans (List.prefix_append _ _)

theorem append (extended : later.Extends draft) (inst : Instruction) :
    (later.append inst).Extends draft where
  name := extended.name
  returnType := extended.returnType
  arguments := extended.arguments
  blocks := by
    rw [append_blockNames]
    exact extended.blocks

theorem ensureBlock (extended : later.Extends draft) (ensured : later.ensureBlock = .ok ready) :
    ready.Extends draft := by
  unfold Draft.ensureBlock at ensured
  split at ensured
  · cases ensured
    exact extended
  · obtain ⟨name, -, named⟩ := bind_eq_ok.mp ensured
    cases Except.ok.inj named
    have opened := extended.openBlock name
    exact ⟨opened.name, opened.returnType, opened.arguments, opened.blocks⟩

end Extends

end Draft

namespace Reader

variable {r next last : Reader} {line : Nat} {text : List Char}
    {entries front rest : List (Nat × List Char)}

theorem readLines_split (read : r.readLines (front ++ rest) = .ok last) :
    ∃ middle, r.readLines front = .ok middle ∧ middle.readLines rest = .ok last := by
  induction front generalizing r with
  | nil => exact ⟨r, rfl, read⟩
  | cons entry more ih =>
      obtain ⟨after, first, between⟩ := bind_eq_ok.mp read
      obtain ⟨middle, read', read''⟩ := ih between
      exact ⟨middle, bind_eq_ok.mpr ⟨after, first, read'⟩, read''⟩

theorem functions_prefix_of_readLines (read : r.readLines entries = .ok last) :
    r.functions <+: last.functions := by
  have kept : ∀ (before : List (List Char)) (s : Reader) (line : Nat) (text : List Char)
      (next : Reader),
      r.functions <+: s.functions → Step s line text next → r.functions <+: next.functions := by
    intro before s line text next held step
    cases step with
    | declare outside form => exact held.trans (List.prefix_append _ _)
    | close inside form settled => exact held.trans (List.prefix_append _ _)
    | _ => exact held
  exact @invariant_of_readLines (fun _ s => r.functions <+: s.functions) kept [] entries r last
    (List.prefix_refl _) read

theorem Step.begins {returnType name params : List Char} (step : Step r line text next)
    (form : TopLine.read text = .ok (.definition returnType name params)) :
    r.draft = none ∧ ∃ (signature : Signature) (names : Names),
      readParameters line r.names.newFunction params = .ok (signature, names) ∧
      next = { r with
        names := names
        draft := some {
          name := String.ofList name, returnType := String.ofList returnType, arguments :=
          signature.arguments,
          line := line, slot := signature.slot } } := by
  cases step with
  | begin outside other parameters =>
      cases form.symm.trans other
      exact ⟨outside, _, _, parameters, rfl⟩
  | skip _ other | declare _ other | global _ other => cases form.symm.trans other
  | close _ body | label _ body | instruction _ body =>
    exact absurd body (IsHeader.not_body ⟨_, _, _, form⟩ _)

theorem Step.header (step : Step r line text next) (header : IsHeader text) :
    r.draft = none ∧ next.draft.isSome = true ∧ next.functions = r.functions := by
  obtain ⟨returnType, name, params, form⟩ := header
  obtain ⟨outside, signature, names, -, rfl⟩ := step.begins form
  exact ⟨outside, rfl, rfl⟩

theorem Step.inside (step : Step r line text next) (inside : r.draft.isSome = true) :
    (text = ['}'] ∧ next.draft = none ∧ ∃ fn, next.functions = r.functions ++ [fn]) ∨
      (text ≠ ['}'] ∧ next.draft.isSome = true ∧ next.functions = r.functions) := by
  cases step with
  | skip outside form => simp [outside] at inside
  | declare outside form => simp [outside] at inside
  | global outside form => simp [outside] at inside
  | begin outside form parameters => simp [outside] at inside
  | close inside form settled => exact Or.inl ⟨close_of_read form, rfl, _, rfl⟩
  | label inside form =>
      refine Or.inr ⟨?_, rfl, rfl⟩
      rintro rfl
      cases read_close.symm.trans form
  | instruction inside form =>
      refine Or.inr ⟨?_, rfl, rfl⟩
      rintro rfl
      cases read_close.symm.trans form

/-- The lines to a closing brace add one function, unless there is no such line. -/
theorem readLines_throughClose {ls : List (List Char)} (inside : r.draft.isSome = true)
    (areLines : entries.map (·.2) = contents (throughClose ls))
    (read : r.readLines entries = .ok next) :
    (next.draft = none ∧ ∃ fn, next.functions = r.functions ++ [fn]) ∨
      (next.draft.isSome = true ∧ throughClose ls = ls) := by
  induction ls generalizing r entries with
  | nil =>
      obtain rfl := List.map_eq_nil_iff.mp areLines
      cases read
      exact Or.inr ⟨inside, rfl⟩
  | cons raw more ih =>
      rw [throughClose] at areLines ⊢
      by_cases isClose : content raw = ['}']
      · rw [if_pos isClose, contents_cons (by simp [isClose])] at areLines
        obtain ⟨⟨line, _⟩, others, rfl, rfl, none⟩ := List.map_eq_cons_iff.mp areLines
        obtain rfl := List.map_eq_nil_iff.mp none
        obtain ⟨after, first, rest⟩ := bind_eq_ok.mp read
        cases rest
        have closes := (step_of_readLine first).inside inside
        exact Or.inl (closes.resolve_right fun stays => stays.1 isClose).2
      · rw [if_neg isClose] at areLines ⊢
        by_cases empty : content raw = []
        · rw [contents_cons_empty empty] at areLines
          exact (ih inside areLines read).imp_right fun ⟨isOpen, whole⟩ => ⟨isOpen, by rw [whole]⟩
        · rw [contents_cons empty] at areLines
          obtain ⟨⟨line, _⟩, others, rfl, rfl, areOthers⟩ := List.map_eq_cons_iff.mp areLines
          obtain ⟨after, first, rest⟩ := bind_eq_ok.mp read
          have stays := (step_of_readLine first).inside inside
          obtain ⟨-, isOpen, same⟩ := stays.resolve_left fun closes => isClose closes.1
          rw [← same]
          exact (ih isOpen areOthers rest).imp_right fun ⟨isOpen, whole⟩ => ⟨isOpen, by rw [whole]⟩

theorem closed_of_readLines {ls after : List (List Char)} (whole : throughClose ls ++ after = ls)
    (inside : r.draft.isSome = true) (areLines : front.map (·.2) = contents (throughClose ls))
    (read : r.readLines front = .ok next) (areBehind : rest.map (·.2) = contents after)
    (readBehind : next.readLines rest = .ok last) (outside : last.draft = none) :
    next.draft = none ∧ ∃ fn, next.functions = r.functions ++ [fn] := by
  rcases readLines_throughClose inside areLines read with closed | ⟨isOpen, all⟩
  · exact closed
  -- No line is left to close the function, so it is still open at the end.
  · have none : after = [] := List.append_right_eq_self.mp (all ▸ whole)
    rw [none] at areBehind
    obtain rfl := List.map_eq_nil_iff.mp areBehind
    cases readBehind
    simp [outside] at isOpen

theorem added_of_readLines {P : Draft → Prop}
    (opens : ∀ {draft : Draft} (name : String), P draft → P (draft.openBlock name))
    (ensures : ∀ {draft ready : Draft}, P draft → draft.ensureBlock = .ok ready → P ready)
    (appends : ∀ {draft : Draft} (inst : Instruction), P draft → P (draft.append inst))
    {draft : Draft} {fn : Function} (inside : r.draft = some draft) (holds : P draft)
    (read : r.readLines entries = .ok next) (added : next.functions = r.functions ++ [fn]) :
    ∃ last : Draft, P last ∧ fn = last.function := by
  induction entries generalizing r draft with
  | nil =>
      cases read
      simp at added
  | cons entry rest ih =>
      obtain ⟨middle, one, others⟩ := bind_eq_ok.mp read
      cases step_of_readLine one with
      | skip outside | declare outside | global outside | begin outside =>
        cases outside.symm.trans inside
      | close same =>
          cases same.symm.trans inside
          have stays := functions_prefix_of_readLines others
          rw [added, List.prefix_append_right_inj] at stays
          exact ⟨draft, holds, (List.cons_prefix_cons.mp stays).1.symm⟩
      | label same =>
          cases same.symm.trans inside
          exact ih rfl (opens _ holds) others added
      | instruction same _ ensured =>
          cases same.symm.trans inside
          exact ih rfl (appends _ (ensures holds ensured)) others added

theorem extends_of_readLines {draft : Draft} {fn : Function} (inside : r.draft = some draft)
    (read : r.readLines entries = .ok next) (added : next.functions = r.functions ++ [fn]) :
    ∃ last : Draft, last.Extends draft ∧ fn = last.function :=
  added_of_readLines (fun name extended => extended.openBlock name)
    (fun extended ensured => extended.ensureBlock ensured)
    (fun inst extended => extended.append inst) inside (.refl draft) read added

theorem outside_of_finish {name : String} {m : Module} (finished : r.finish name = .ok m) :
    r.draft = none ∧ m.functions = r.functions := by
  unfold finish at finished
  split at finished
  · cases finished
  · next outside =>
      cases finished
      exact ⟨outside, rfl⟩

theorem functions_length_of_readLines (read : Reader.readLines {} entries = .ok last) :
    last.functions.length = (Outline.ofLines (entries.map (·.2))).functions.length := by
  have kept : ∀ (before : List (List Char)) (s : Reader) (line : Nat) (text : List Char)
      (next : Reader),
      s.outline = Outline.ofLines before → Step s line text next →
        next.outline = Outline.ofLines (before ++ [text]) := by
    intro before s line text next held step
    rw [outline_step step, held, Outline.ofLines_concat]
  have outline : last.outline = Outline.ofLines (entries.map (·.2)) :=
    @invariant_of_readLines (fun before s => s.outline = Outline.ofLines before) kept [] entries {}
      last rfl read
  rw [← outline]
  simp [Reader.outline]

end Reader

/-- The reading of a function between the lines before it and those after it. -/
structure ReadWithin (m : Module) (before ls : List (List Char)) (fn : Function) (r next : Reader) :
    Prop where
  outside : r.draft = none
  reads : ∃ entries : List (Nat × List Char), entries.map (·.2) = contents ls ∧
    r.readLines entries = .ok next
  closed : next.draft = none
  added : next.functions = r.functions ++ [fn]
  isFunction : m.functions[functionsIn before]? = some fn

/-- A line that begins a function of an accepted text begins lines that are read as one function. -/
theorem exists_readWithin {text name : String} {m : Module} (accepted : read text name = .ok m)
    {before rest : List (List Char)} {line : List Char}
    (isText : lines text.toList = before ++ line :: rest) (header : IsHeader (content line)) :
    ∃ fn r next, ReadWithin m before (throughClose (line :: rest)) fn r next := by
  obtain ⟨last, readLines, finished⟩ := bind_eq_ok.mp accepted
  obtain ⟨ended, functions⟩ := Reader.outside_of_finish finished
  obtain ⟨after, whole⟩ := throughClose_prefix rest
  have texts := contentTexts_of_lines isText header.nonempty whole
  obtain ⟨front, others, entries, areFront, areOthers⟩ := List.map_eq_append_iff.mp texts
  obtain ⟨⟨number, _⟩, more, rfl, rfl, areMore⟩ := List.map_eq_cons_iff.mp areOthers
  obtain ⟨body, behind, rfl, areBody, areBehind⟩ := List.map_eq_append_iff.mp areMore
  rw [entries] at readLines
  obtain ⟨r, readFront, readOthers⟩ := Reader.readLines_split readLines
  obtain ⟨opened, first, readMore⟩ := bind_eq_ok.mp readOthers
  obtain ⟨next, readBody, readBehind⟩ := Reader.readLines_split readMore
  obtain ⟨outside, inside, same⟩ := (Reader.step_of_readLine first).header header
  obtain ⟨closed, fn, added⟩ :=
    Reader.closed_of_readLines whole inside areBody readBody areBehind readBehind ended
  rw [same] at added
  refine ⟨fn, r, next, outside, ⟨(number, content line) :: body, ?_, ?_⟩, closed, added, ?_⟩
  · rw [throughClose, if_neg header.ne_close, contents_cons header.nonempty, ← areBody]
    rfl
  · exact bind_eq_ok.mpr ⟨opened, first, readBody⟩
  · obtain ⟨more, stays⟩ := Reader.functions_prefix_of_readLines readBehind
    have count : functionsIn before = r.functions.length := by
      rw [functionsIn, ← areFront, Reader.functions_length_of_readLines readFront]
    rw [functions, ← stays, added, count]
    simp

structure BodyRead (m : Module) (before rest : List (List Char)) (line : List Char) (fn : Function)
    (r opened : Reader) (number : Nat) :
    Prop where
  isFunction : m.functions[functionsIn before]? = some fn
  outside : r.draft = none
  header : r.readLine number (content line) = .ok opened
  body : ∃ (entries : List (Nat × List Char)) (next : Reader),
    entries.map (·.2) = contents (throughClose rest) ∧
    opened.readLines entries = .ok next ∧ next.functions = opened.functions ++ [fn]

theorem exists_bodyRead {text name : String} {m : Module} (accepted : read text name = .ok m)
    {before rest : List (List Char)} {line : List Char}
    (isText : lines text.toList = before ++ line :: rest) (header : IsHeader (content line)) :
    ∃ fn r opened number, BodyRead m before rest line fn r opened number := by
  obtain ⟨fn, r, next, within⟩ := exists_readWithin accepted isText header
  obtain ⟨entries, areLines, reads⟩ := within.reads
  rw [throughClose, if_neg header.ne_close, contents_cons header.nonempty] at areLines
  obtain ⟨⟨number, _⟩, others, rfl, rfl, areOthers⟩ := List.map_eq_cons_iff.mp areLines
  obtain ⟨opened, first, behind⟩ := bind_eq_ok.mp reads
  obtain ⟨-, -, same⟩ := (Reader.step_of_readLine first).header header
  exact ⟨fn, r, opened, number, within.isFunction, within.outside, first, others, next,
    areOthers, behind, by rw [same, within.added]⟩

theorem ReadWithin.alone {m : Module} {before ls : List (List Char)} {fn : Function}
    {r next : Reader} (within : ReadWithin m before ls fn r next) {part : String}
    (isPart : lines part.toList = ls) (name : String) :
    ∃ alone again, read part name = .ok alone ∧ alone.functions = [again] ∧
      functionShown fn = functionShown again := by
  obtain ⟨entries, areLines, readLines⟩ := within.reads
  have start : r.Alike r.functions ({} : Reader).functions {} := .of_outside within.outside rfl
  have texts : (contentLines part.toList).map (·.2) = entries.map (·.2) := by
    rw [areLines, ← isPart]
    exact contentTexts_eq part
  obtain ⟨last, read, alike⟩ := start.leads readLines _ texts
  obtain ⟨added, added', functions, functions', shown⟩ := alike.functions
  rw [within.added] at functions
  obtain rfl := List.append_cancel_left functions
  obtain ⟨again, only, same⟩ := forall₂_singleton shown
  have ended := alike.outside within.closed
  refine ⟨{ name := name, functions := last.functions, globals := last.names.globals }, again, ?_,
    ?_, same⟩
  · exact bind_eq_ok.mpr ⟨last, read, by simp [Reader.finish, ended]⟩
  · rw [functions', only]
    rfl

/-- A function of an accepted text is accepted by itself, whatever is around it, and it is the same
function and numbered alike. -/
theorem function_read_alone {text name : String} {m : Module} (accepted : read text name = .ok m)
    {before rest : List (List Char)} {line : List Char}
    (isText : lines text.toList = before ++ line :: rest) (header : IsHeader (content line))
    {part : String} (isPart : lines part.toList = throughClose (line :: rest)) (name' : String) :
    ∃ fn alone again, m.functions[functionsIn before]? = some fn ∧ read part name' = .ok alone ∧
      alone.functions = [again] ∧
      functionShown again = functionShown fn ∧ ∀ settings : Numbering.Settings,
        (Numbering.ofFunction settings fn).SameReport (Numbering.ofFunction settings again) ∧
        (Numbering.ofFunction settings fn).numbering.knowledge.store.next =
          (Numbering.ofFunction settings again).numbering.knowledge.store.next := by
  obtain ⟨fn, r, next, within⟩ := exists_readWithin accepted isText header
  obtain ⟨alone, again, accepted', only, shown⟩ := within.alone isPart name'
  refine ⟨fn, alone, again, within.isFunction, accepted', only, shown.symm, fun settings => ?_⟩
  obtain ⟨objects, made⟩ := made_of_read accepted
  obtain ⟨objects', made'⟩ := made_of_read accepted'
  have isFunction : alone.functions[0]? = some again := by
    rw [only]
    rfl
  have blocks : blocksShown fn.blocks = blocksShown again.blocks :=
    congrArg FunctionShown.blocks shown
  have written : fn.instructions.map (·.written) = again.instructions.map (·.written) := by
    rw [written_of_blocksShown, written_of_blocksShown, blocks]
  have agrees := made.agrees_of_lines made' within.isFunction isFunction
    (made.lines_of_written made' within.isFunction isFunction written) settings
  exact ⟨agrees.sameReport, agrees.knowledge.next⟩

def storesToBoth : List String :=
  ["define void @f(i32 %x) \x7b", "store i32 %x, ptr @g",
    "store i32 %x, ptr inttoptr (i64 8 to ptr)", "\x7d", ""]

def beginsLoads : String := "define i32 @h() \x7b ; by itself"

def loadsFromBoth : List String :=
  ["  %a = load i32, ptr @g", "  %b = load i32, ptr inttoptr  (i64 8  to ptr)", "\x7d"]

def sharedPointers : String :=
  unlines (storesToBoth ++ beginsLoads :: loadsFromBoth ++ ["@g = global i32 0"])

def withoutStores : String := unlines (beginsLoads :: loadsFromBoth)

/-- What the first function stores is not known in the second. -/
theorem sharedPointers_read_alone :
    ∃ m fn alone again, read sharedPointers = .ok m ∧ m.functions[1]? = some fn ∧
    read withoutStores = .ok alone ∧ alone.functions = [again] ∧
      functionShown again = functionShown fn ∧
    (∀ settings : Numbering.Settings,
      (Numbering.ofFunction settings fn).SameReport (Numbering.ofFunction settings again) ∧
      (Numbering.ofFunction settings fn).numbering.knowledge.store.next =
        (Numbering.ofFunction settings again).numbering.knowledge.store.next) ∧
    (Numbering.ofFunction {} again).numbering.records.map (·.toDecision) =
      [⟨1, [none], false⟩, ⟨2, [none], false⟩] := by
  have viewed : (read sharedPointers).toOption.map (fun m => m.functions[1]?.map fun fn =>
      (Numbering.ofFunction {} fn).numbering.records.map (·.toDecision)) =
        some (some [⟨1, [none], false⟩, ⟨2, [none], false⟩]) := by
    decide +kernel
  obtain ⟨m, isModule, decisions⟩ := Option.map_eq_some_iff.mp viewed
  have accepted := ok_of_toOption isModule
  let before : List (List Char) := storesToBoth.map (·.toList)
  let rest : List (List Char) := (loadsFromBoth ++ ["@g = global i32 0"]).map (·.toList)
  have isText : lines sharedPointers.toList = before ++ beginsLoads.toList :: rest := by
    decide +kernel
  have isPart : lines withoutStores.toList = throughClose (beginsLoads.toList :: rest) := by
    decide +kernel
  have isHeader : (TopLine.read (content beginsLoads.toList)).toOption =
      some (.definition "i32".toList "h".toList []) := by
    decide +kernel
  obtain ⟨fn, alone, again, isFunction, accepted', only, shown, same⟩ :=
    function_read_alone accepted isText ⟨_, _, _, ok_of_toOption isHeader⟩ isPart "<stdin>"
  have index : functionsIn before = 1 := by decide +kernel
  rw [index] at isFunction
  rw [isFunction] at decisions
  refine ⟨m, fn, alone, again, accepted, isFunction, accepted', only, shown, same, ?_⟩
  exact (same {}).1.decisions.symm.trans (Option.some.inj decisions)

end ValueNumbering.Assembly

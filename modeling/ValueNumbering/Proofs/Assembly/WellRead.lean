import ValueNumbering.Proofs.Assembly.Acceptance
import ValueNumbering.Proofs.Assembly.Coreference
import ValueNumbering.Proofs.Assembly.LineNumbers
import ValueNumbering.Proofs.Assembly.LinesRead
import ValueNumbering.Proofs.Dictionaries

/-!
What an accepted module is made of: names, words, legible lines, and globals with initializers that
stand on a line.
-/

namespace ValueNumbering.Assembly

open Text

structure ArgumentRead (arg : Argument) : Prop where
  type : IsWordText arg.type.toList
  slot : ∀ slot, ∃ next, slotAfter slot arg.name.toList = .ok next

theorem slotAfter_of_read {name : List Char} {n : Int} (number : Integer.read name = .ok n)
    (slot : Nat) :
    ∃ next, slotAfter slot name = .ok next := by
  unfold slotAfter
  split
  · exact ⟨_, by rw [number]; rfl⟩
  · exact ⟨slot, rfl⟩

theorem slotAfter_again {name : List Char} {slot next : Nat}
    (first : slotAfter slot name = .ok next) (slot' : Nat) :
    ∃ next', slotAfter slot' name = .ok next' := by
  unfold slotAfter at first
  split at first
  · obtain ⟨n, lifted, -⟩ := bind_eq_ok.mp first
    exact slotAfter_of_read (ok_of_liftInteger lifted) slot'
  · next notDigits => exact ⟨slot', by rw [slotAfter, if_neg notDigits]⟩

theorem write_of_slotText {slot : Nat} {name : String} (written : slotText slot = .ok name) :
    Integer.write slot = .ok name := ok_of_liftInteger written

theorem isName_of_slotText {slot : Nat} {name : String} (written : slotText slot = .ok name) :
    IsName name.toList := by
  have isNumber := write_of_slotText written
  unfold Integer.write at isNumber
  split at isNumber
  · cases isNumber
  · cases isNumber
    rw [Integer.toString_ofNat]
    exact isName_of_allDigits (Integer.allDigits_repr slot) (Integer.repr_ne_nil slot)

theorem parameter_sound {piece : List Char} {parameter : Parameter}
    (read : Parameter.read piece = .ok parameter) :
    ∀ type, (parameter = .unnamed type ∨ ∃ name, parameter = .named type name) →
      IsWordText type := by
  intro type kind
  unfold Parameter.read at read
  split at read
  · cases read
    rcases kind with same | ⟨name, same⟩ <;> cases same
  · simp only at read
    split at read
    · next first name isFirst isLast =>
        cases read
        rcases kind with same | ⟨name, same⟩ <;> cases same
        exact isWordText_of_mem_words (List.mem_of_mem_head? isFirst)
    · next first other notNamed isFirst isLast =>
        cases read
        rcases kind with same | ⟨name, same⟩ <;> cases same
        exact isWordText_of_mem_words (List.mem_of_mem_head? isFirst)
    · cases read

theorem addArgument_read {line : Nat} {signature signature' : Signature} {names after : Names}
    {name type : String}
    (added : addArgument line signature names name type = .ok (signature', after))
    (earlier : ∀ arg ∈ signature.arguments, ArgumentRead arg) (isType : IsWordText type.toList)
    (slot : ∀ slot, ∃ next, slotAfter slot name.toList = .ok next) :
    (∀ arg ∈ signature'.arguments, ArgumentRead arg) ∧ after.globals = names.globals := by
  obtain ⟨-, arguments, rfl⟩ := addArgument_ok added
  refine ⟨?_, rfl⟩
  rw [arguments]
  intro arg member
  rcases List.mem_append.mp member with old | new
  · exact earlier arg old
  · rw [List.mem_singleton.mp new]
    exact ⟨isType, slot⟩

theorem addParameter_read {line : Nat} {piece : List Char} {parameter : Parameter}
    {signature signature' : Signature} {names after : Names}
    (read : Parameter.read piece = .ok parameter)
    (earlier : ∀ arg ∈ signature.arguments, ArgumentRead arg)
    (added : addParameter line signature names parameter = .ok (signature', after)) :
    (∀ arg ∈ signature'.arguments, ArgumentRead arg) ∧ after.globals = names.globals := by
  have isType := parameter_sound read
  cases parameter with
  | variadic =>
      cases added
      exact ⟨earlier, rfl⟩
  | unnamed type =>
      obtain ⟨name, written, rest⟩ := bind_eq_ok.mp added
      have number := Integer.read_of_write (write_of_slotText written)
      have isWord : IsWordText (String.ofList type).toList := by
        simpa using isType type (Or.inl rfl)
      exact addArgument_read rest earlier isWord (slotAfter_of_read number)
  | named type name =>
      obtain ⟨slot, first, rest⟩ := bind_eq_ok.mp added
      have isWord : IsWordText (String.ofList type).toList := by
        simpa using isType type (Or.inr ⟨name, rfl⟩)
      exact addArgument_read rest earlier isWord (by simpa using slotAfter_again first)

theorem addPieces_read {line : Nat} {pieces : List (List Char)} {signature signature' : Signature}
    {names after : Names} (earlier : ∀ arg ∈ signature.arguments, ArgumentRead arg)
    (added : addPieces line signature names pieces = .ok (signature', after)) :
    (∀ arg ∈ signature'.arguments, ArgumentRead arg) ∧ after.globals = names.globals := by
  induction pieces generalizing signature names with
  | nil =>
      cases added
      exact ⟨earlier, rfl⟩
  | cons piece rest ih =>
      obtain ⟨parameter, read, more⟩ := bind_eq_ok.mp added
      obtain ⟨⟨middle, between⟩, one, last⟩ := bind_eq_ok.mp more
      obtain ⟨sofar, globals⟩ := addParameter_read read earlier one
      obtain ⟨all, globals'⟩ := ih sofar last
      exact ⟨all, globals'.trans globals⟩

structure Keeps (inst : Instruction) (entry : LegibleLine) : Prop where
  text : inst.text = some (String.ofList entry.text)
  result : entry.result = inst.name

theorem Keeps.written {inst : Instruction} {entry : LegibleLine} (keeps : Keeps inst entry) :
    inst.written = .ok (String.ofList entry.text) := by
  rw [Instruction.written, keeps.text]

/-- What a function is made of. A declaration keeps its parameters as text. -/
structure FunctionRead (fn : Function) : Prop where
  signature : IsSignature fn.returnType.toList fn.name.toList
  arguments : ∀ arg ∈ fn.arguments, ArgumentRead arg
  labels : ∀ block ∈ fn.blocks, IsName block.name.toList
  lines : ∀ inst ∈ fn.instructions, ∃ entry, Keeps inst entry
  params : ∀ text, fn.params = some text → Trimmed text.toList ∧ Unbroken text.toList ∧
    fn.arguments = [] ∧ fn.blocks = []

structure GlobalsRead (globals : Dictionary String Global) : Prop where
  named : ∀ entry ∈ globals.entries, entry.2.name = entry.1
  distinct : globals.keys.Nodup
  initializers : ∀ entry ∈ globals.entries, ∀ text, entry.2.initializer = some text →
    Bare text.toList

namespace GlobalsRead

variable {globals : Dictionary String Global} {names : Names}

theorem insert (read : GlobalsRead globals) (global : Global)
    (initializer : ∀ text, global.initializer = some text → Bare text.toList) :
    GlobalsRead (globals.insert global.name global) where
  named := by
    intro entry member
    rcases Dictionary.mem_entries_insert member with rfl | old
    · rfl
    · exact read.named entry old
  distinct := Dictionary.nodup_keys_insert read.distinct _ _
  initializers := by
    intro entry member
    rcases Dictionary.mem_entries_insert member with rfl | old
    · exact initializer
    · exact read.initializers entry old

theorem global (read : GlobalsRead names.globals) (name : String) :
    GlobalsRead (names.global name).2.globals ∧ (names.global name).1.name = name := by
  unfold Names.global
  cases stored : names.globals.find? name with
  | none => exact ⟨read.insert { id := names.nextId, name := name } (by simp), rfl⟩
  | some found =>
      exact ⟨read, read.named _ (Dictionary.mem_entries_of_find? stored)⟩

theorem defineGlobal (read : GlobalsRead names.globals) {name initializer : String}
    (bare : Bare initializer.toList) :
    GlobalsRead (names.defineGlobal name initializer).globals := by
  obtain ⟨read', named⟩ := read.global name
  have inserted :=
    read'.insert { (names.global name).1 with initializer := some initializer } fun text same =>
    Option.some.inj same ▸ bare
  simpa [Names.defineGlobal, named] using inserted

theorem bind (read : GlobalsRead names.globals) (line : Nat) (token : Token) :
    GlobalsRead (names.bind line token).2.globals := by
  cases token with
  | named name =>
      simp only [Names.bind, Names.lookup]
      split <;> exact read
  | global name => exact (read.global name).1
  | literal value type => exact read
  | expression words type =>
      simp only [Names.bind, Names.expression]
      split <;> exact read
  | constant text type => exact read

theorem bindAll (read : GlobalsRead names.globals) (line : Nat) (tokens : List TypedToken) :
    GlobalsRead (names.bindAll line tokens).2.globals := by
  induction tokens generalizing names with
  | nil => exact read
  | cons operand rest ih => exact ih (read.bind line operand.token)

end GlobalsRead

/-- The number of a line is in the faults only. -/
theorem statement_any_line {line line' : Nat} {opcode : Opcode} {rest : List Char}
    {statement : Statement} (stated : Statement.read line opcode rest = .ok statement) :
    Statement.read line' opcode rest = .ok statement := by
  have moved := @statement_renumbered (fun _ => line') line opcode rest
  rwa [stated] at moved

structure Reader.WellRead (r : Reader) : Prop where
  functions : ∀ fn ∈ r.functions, FunctionRead fn
  draft : ∀ draft, r.draft = some draft → FunctionRead draft.function
  globals : GlobalsRead r.names.globals

namespace FunctionRead

variable {fn : Function}

theorem openBlock {draft : Draft} (read : FunctionRead draft.function) {name : String}
    (isName : IsName name.toList) :
    FunctionRead (draft.openBlock name).function where
  signature := read.signature
  arguments := read.arguments
  labels := by
    intro block member
    rcases List.mem_append.mp member with old | new
    · exact read.labels block old
    · rw [List.mem_singleton.mp new]
      exact isName
  lines := by
    have same := draft.openBlock_instructions name
    simp only [Draft.instructions] at same
    rw [same]
    exact read.lines
  params := by simp [Draft.function]

theorem ensureBlock {draft ready : Draft} (read : FunctionRead draft.function)
    (ensured : draft.ensureBlock = .ok ready) :
    FunctionRead ready.function := by
  unfold Draft.ensureBlock at ensured
  split at ensured
  · cases ensured
    exact read
  · obtain ⟨name, written, made⟩ := bind_eq_ok.mp ensured
    cases made
    exact read.openBlock (isName_of_slotText written)

theorem append {draft : Draft} {block : Block} (read : FunctionRead draft.function)
    (opened : draft.current = some block) {inst : Instruction} (last : ∃ entry, Keeps inst entry) :
    FunctionRead (draft.append inst).function where
  signature := read.signature
  arguments := read.arguments
  labels := by
    have earlier := read.labels
    intro other member
    simp only [Draft.function, Draft.blocks, Draft.append, opened, Option.map_some,
      Option.toList_some, List.mem_append, List.mem_singleton] at earlier member
    rcases member with old | rfl
    · exact earlier other (Or.inl old)
    · exact earlier block (Or.inr rfl)
  lines := by
    have instructions := Draft.append_instructions opened inst
    simp only [Draft.instructions] at instructions
    rw [instructions]
    intro other member
    rcases List.mem_append.mp member with old | new
    · exact read.lines other old
    · exact List.mem_singleton.mp new ▸ last
  params := by simp [Draft.function]

end FunctionRead

namespace Reader.WellRead

variable {r next : Reader}

theorem start : WellRead {} := by
  refine ⟨by simp, by simp, ⟨?_, List.nodup_nil, ?_⟩⟩ <;> exact fun entry member => nomatch member

theorem functions_concat (read : WellRead r) {fn : Function} (last : FunctionRead fn) :
    ∀ other ∈ r.functions ++ [fn], FunctionRead other := by
  intro other member
  rcases List.mem_append.mp member with old | new
  · exact read.functions other old
  · exact List.mem_singleton.mp new ▸ last

theorem target_globals {names after : Names} {line : Nat} {result : Option (List Char)}
    {value : Value} (targeted : target names line result = .ok (value, after)) :
    after.globals = names.globals := by
  cases result with
  | none =>
      cases targeted
      rfl
  | some name =>
      rcases define_cases (ok_of_atLine targeted) with ⟨-, -, rfl⟩ | ⟨-, -, rfl⟩ <;> rfl

theorem step (read : WellRead r) {line : Nat} {text : List Char} (bare : Bare text)
    (step : Step r line text next) : WellRead next := by
  cases step with
  | skip outside form => exact read
  | declare outside form =>
      cases topLine_read bare form with
      | declaration signature trimmed inside =>
          refine ⟨read.functions_concat
            ⟨by simpa using signature, by simp, by simp, by simp [Function.instructions], ?_⟩,
            by simp [outside], read.globals⟩
          intro text same
          cases same
          exact ⟨by simpa using trimmed, fun c member =>
            bare.within c (inside c (by simpa using member)), rfl, rfl⟩
  | global outside form =>
      cases topLine_read bare form with
      | global isName isBare =>
        exact ⟨read.functions, by simp [outside], read.globals.defineGlobal (by simpa using isBare)⟩
  | begin outside form parameters =>
      cases topLine_read bare form with
      | definition signature =>
          obtain ⟨arguments, globals⟩ := addPieces_read (by simp) parameters
          refine ⟨read.functions, ?_, globals ▸ read.globals⟩
          intro draft isDraft
          cases isDraft
          exact ⟨by simpa [Draft.function] using signature, arguments,
            by simp [Draft.function, Draft.blocks],
            by simp [Draft.function, Draft.blocks, Function.instructions], by simp [Draft.function]⟩
  | close inside form settled =>
    exact ⟨read.functions_concat (read.draft _ inside), by simp, read.globals⟩
  | label inside form =>
      refine ⟨read.functions, ?_, read.globals⟩
      intro draft isDraft
      cases isDraft
      exact (read.draft _ inside).openBlock (by simpa using label_read form)
  | @instruction _ ready result mnemonic rest value names statement inside form ensured targeted
      stated inst isFilled =>
      obtain ⟨⟨block, opened⟩, -⟩ := Draft.ensureBlock_ok ensured
      have last : ∃ entry, Keeps inst entry := by
        let entry : LegibleLine :=
          { text := text, result := result.map String.ofList,
            tokens := statement.tokens.map (·.token), bare := bare,
            legible := ⟨result, mnemonic, rest, statement, form, rfl, rfl, fun _ =>
              statement_any_line stated⟩ }
        exact ⟨entry, by simp [isFilled, unfilled, entry], by simp [isFilled, unfilled, entry]⟩
      refine ⟨read.functions, ?_, ?_⟩
      · intro draft isDraft
        cases isDraft
        exact ((read.draft _ inside).ensureBlock ensured).append opened last
      · have same := target_globals targeted
        exact GlobalsRead.bindAll (same ▸ read.globals) line statement.tokens

end Reader.WellRead

theorem invariant_of_bare_lines {invariant : Reader → Prop} (start : invariant {})
    (kept : ∀ r line text next, Bare text → invariant r → Reader.Step r line text next →
      invariant next)
    {text name : String} {m : Module} (accepted : read text name = .ok m) :
    ∃ r : Reader, invariant r ∧ m.functions = r.functions ∧ m.globals = r.names.globals := by
  obtain ⟨r, held, -, functions, globals⟩ :=
    invariant_of_read (fun before r => (∀ line ∈ before, Bare line) → invariant r) (fun _ => start)
      (fun before r line text next held step areBare => by
        have last := areBare text (List.mem_append_right _ (List.mem_singleton_self _))
        exact kept r line text next last
          (held fun other member => areBare other (List.mem_append_left _ member)) step) accepted
  exact ⟨r, held fun line member => bare_of_mem_contentTexts member, functions, globals⟩

theorem wellRead_of_read {text name : String} {m : Module} (accepted : read text name = .ok m) :
    (∀ fn ∈ m.functions, FunctionRead fn) ∧ GlobalsRead m.globals := by
  obtain ⟨r, wellRead, functions, globals⟩ :=
    invariant_of_bare_lines Reader.WellRead.start
      (fun _ _ _ _ bare held step => held.step bare step) accepted
  rw [functions, globals]
  exact ⟨wellRead.functions, wellRead.globals⟩

end ValueNumbering.Assembly

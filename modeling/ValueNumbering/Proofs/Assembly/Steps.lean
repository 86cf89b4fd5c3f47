import ValueNumbering.Assembly.Reader

/-!
What one line does to the reader, as a relation with a case for each kind of line, and the induction
over the lines of a text that is read to its end.
-/

namespace ValueNumbering.Assembly

theorem bind_eq_ok {ε α β : Type} {first : Except ε α} {next : α → Except ε β} {b : β} :
    first >>= next = .ok b ↔ ∃ a, first = .ok a ∧ next a = .ok b := by
  cases first with
  | error fault => simp [bind, Except.bind]
  | ok a => simp [bind, Except.bind]

theorem bind_eq_error {ε α β : Type} {first : Except ε α} {next : α → Except ε β} {fault : ε} :
    first >>= next = .error fault ↔ first = .error fault ∨ ∃ a, first = .ok a ∧
      next a = .error fault := by
  cases first with
  | error other => simp [bind, Except.bind]
  | ok a => simp [bind, Except.bind]

theorem ok_of_toOption {ε α : Type} {result : Except ε α} {a : α}
    (found : result.toOption = some a) : result = .ok a := by
  cases result with
  | error fault => cases found
  | ok b => exact congrArg Except.ok (Option.some.inj found)

theorem ok_of_atLine {α : Type} {line : Nat} {result : Except Cause α} {a : α}
    (placed : atLine line result = .ok a) : result = .ok a := by
  cases result with
  | error cause => cases placed
  | ok b => exact congrArg Except.ok (Except.ok.inj placed)

theorem atLine_ok {α : Type} {result : Except Cause α} {a : α} (found : result = .ok a)
    {line : Nat} :
    atLine line result = .ok a := by
  rw [found]
  rfl

def Statement.tokens : Statement → List TypedToken
  | .store value pointer _ => [value, pointer]
  | .load _ pointer _ => [pointer]
  | .alloca _ _ => []
  | .binary _ type lhs rhs => [⟨type, lhs⟩, ⟨type, rhs⟩]
  | .verbatim => []

def Names.bindAll (names : Names) (line : Nat) : List TypedToken → List Operand × Names
  | [] => ([], names)
  | token :: rest =>
      let (operand, names) := names.bindTyped line token
      let (operands, names) := names.bindAll line rest
      (operand :: operands, names)

namespace Draft

def instructions (draft : Draft) : List Instruction := draft.function.instructions

@[simp] theorem openBlock_instructions (draft : Draft) (name : String) :
    (draft.openBlock name).instructions = draft.instructions := by
  simp [instructions, function, Function.instructions, openBlock, blocks]

@[simp] theorem openBlock_arguments (draft : Draft) (name : String) :
    (draft.openBlock name).arguments = draft.arguments := rfl

theorem append_instructions {draft : Draft} {block : Block} (opened : draft.current = some block)
    (inst : Instruction) : (draft.append inst).instructions = draft.instructions ++ [inst] := by
  simp [instructions, function, Function.instructions, append, blocks, opened]

@[simp] theorem append_arguments (draft : Draft) (inst : Instruction) :
    (draft.append inst).arguments = draft.arguments := rfl

theorem ensureBlock_ok {draft ready : Draft} (ensured : draft.ensureBlock = .ok ready) :
    (∃ block, ready.current = some block) ∧ ready.instructions = draft.instructions ∧
      ready.arguments = draft.arguments := by
  unfold ensureBlock at ensured
  split at ensured
  · next block opened =>
      cases ensured
      exact ⟨⟨block, opened⟩, rfl, rfl⟩
  · obtain ⟨name, -, named⟩ := bind_eq_ok.mp ensured
    cases Except.ok.inj named
    exact ⟨⟨_, rfl⟩, draft.openBlock_instructions name, rfl⟩

end Draft

namespace Reader

/-- An instruction before its statement is looked at. -/
def unfilled (value : Value) (opcode : Opcode) (result : Option (List Char)) (text : List Char) :
    Instruction :=
  { id := value.id, opcode := opcode, name := result.map String.ofList,
    text := some (String.ofList text) }

section Fill

variable (names : Names) (line : Nat) (inst : Instruction) (statement : Statement)

theorem fill_operands (empty : inst.operands = []) :
    (fill names line inst statement).1.operands = (names.bindAll line statement.tokens).1 := by
  cases statement <;> simp [fill, Statement.tokens, Names.bindAll, empty]

theorem fill_names : (fill names line inst statement).2 =
    (names.bindAll line statement.tokens).2 := by
  cases statement <;> simp [fill, Statement.tokens, Names.bindAll]

@[simp] theorem fill_id : (fill names line inst statement).1.id = inst.id := by
  cases statement <;> rfl

@[simp] theorem fill_opcode : (fill names line inst statement).1.opcode = inst.opcode := by
  cases statement <;> rfl

@[simp] theorem fill_name : (fill names line inst statement).1.name = inst.name := by
  cases statement <;> rfl

@[simp] theorem fill_text : (fill names line inst statement).1.text = inst.text := by
  cases statement <;> rfl

end Fill

theorem fill_result {value : Value} {result : Option (List Char)}
    (form : value.form = .result (result.map String.ofList)) (names : Names) (line : Nat)
    (opcode : Opcode) (text : List Char) (statement : Statement) :
    (fill names line (unfilled value opcode result text) statement).1.result = value := by
  obtain ⟨id, valueForm⟩ := value
  simp only at form
  simp [Instruction.result, unfilled, form]

/-- What a line can do where no fault is found. -/
inductive Step (r : Reader) (line : Nat) (text : List Char) : Reader → Prop
  | skip (outside : r.draft = none) (form : TopLine.read text = .ok .skipped) : Step r line text r
  | declare {returnType name params : List Char} (outside : r.draft = none)
      (form : TopLine.read text = .ok (.declaration returnType name params)) :
      Step r line text { r with functions := r.functions ++ [{
        name := String.ofList name, returnType := String.ofList returnType,
        params := some (String.ofList params) }] }
  | global {name initializer : List Char} (outside : r.draft = none)
      (form : TopLine.read text = .ok (.global name initializer)) :
      Step r line text { r with
        names := r.names.defineGlobal (String.ofList name) (String.ofList initializer) }
  | begin {returnType name params : List Char} {signature : Signature} {names : Names}
      (outside : r.draft = none)
      (form : TopLine.read text = .ok (.definition returnType name params))
      (parameters : readParameters line r.names.newFunction params = .ok (signature, names)) :
      Step r line text { r with
        names := names
        draft := some {
          name := String.ofList name, returnType := String.ofList returnType, arguments :=
          signature.arguments,
          line := line, slot := signature.slot } }
  | close {draft : Draft} (inside : r.draft = some draft) (form : BodyLine.read text = .ok .close)
      (settled : r.names.pending.entries = []) :
      Step r line text { r with functions := r.functions ++ [draft.function], draft := none }
  | label {draft : Draft} {name : List Char} (inside : r.draft = some draft)
      (form : BodyLine.read text = .ok (.label name)) :
      Step r line text { r with draft := some (draft.openBlock (String.ofList name)) }
  | instruction {draft ready : Draft} {result : Option (List Char)} {mnemonic rest : List Char}
      {value : Value}
      {names : Names} {statement : Statement} (inside : r.draft = some draft)
      (form : BodyLine.read text = .ok (.instruction result mnemonic rest))
      (ensured : draft.ensureBlock = .ok ready)
      (targeted : target r.names line result = .ok (value, names))
      (stated : Statement.read line (Opcode.ofMnemonic (String.ofList mnemonic)) rest =
        .ok statement)
      {inst : Instruction}
      (filled : inst = (fill names line
        (unfilled value (Opcode.ofMnemonic (String.ofList mnemonic)) result text) statement).1) :
      Step r line text { r with
        names := (names.bindAll line statement.tokens).2
        draft := some (ready.append inst) }

theorem step_of_topLine {r next : Reader} {line : Nat} {text : List Char} (outside : r.draft = none)
    (read : r.topLine line text = .ok next) : Step r line text next := by
  obtain ⟨top, kind, rest⟩ := bind_eq_ok.mp read
  have form := ok_of_atLine kind
  cases top with
  | skipped => exact Except.ok.inj rest ▸ .skip outside form
  | declaration returnType name params => exact Except.ok.inj rest ▸ .declare outside form
  | global name initializer => exact Except.ok.inj rest ▸ .global outside form
  | definition returnType name params =>
      obtain ⟨entry, parameters, last⟩ := bind_eq_ok.mp rest
      exact Except.ok.inj last ▸ .begin outside form parameters

theorem step_of_bodyLine {r next : Reader} {draft : Draft} {line : Nat} {text : List Char}
    (inside : r.draft = some draft) (read : r.bodyLine draft line text = .ok next) :
    Step r line text next := by
  obtain ⟨body, kind, rest⟩ := bind_eq_ok.mp read
  have form := ok_of_atLine kind
  cases body with
  | close =>
      change r.endFunction draft = .ok next at rest
      unfold endFunction at rest
      split at rest
      · cases rest
      · next settled => exact Except.ok.inj rest ▸ .close inside form settled
  | label name => exact Except.ok.inj rest ▸ .label inside form
  | instruction result mnemonic operands =>
      obtain ⟨ready, ensured, rest⟩ := bind_eq_ok.mp rest
      obtain ⟨entry, made, last⟩ := bind_eq_ok.mp rest
      obtain ⟨bound, targeted, rest⟩ := bind_eq_ok.mp made
      obtain ⟨statement, stated, filled⟩ := bind_eq_ok.mp rest
      have whole : entry = fill bound.2 line
          (unfilled bound.1 (Opcode.ofMnemonic (String.ofList mnemonic)) result text) statement :=
        (Except.ok.inj filled).symm
      have same := Except.ok.inj last
      subst whole
      rw [fill_names] at same
      exact same ▸ .instruction inside form ensured targeted stated rfl

theorem step_of_readLine {r next : Reader} {line : Nat} {text : List Char}
    (read : r.readLine line text = .ok next) : Step r line text next := by
  unfold readLine at read
  split at read
  · next outside => exact step_of_topLine outside read
  · next draft inside => exact step_of_bodyLine inside read

theorem readLine_outside {r : Reader} (outside : r.draft = none) (line : Nat) (text : List Char) :
    r.readLine line text = r.topLine line text := by
  rw [readLine, outside]

theorem readLine_inside {r : Reader} {draft : Draft} (inside : r.draft = some draft) (line : Nat)
    (text : List Char) :
    r.readLine line text = r.bodyLine draft line text := by
  rw [readLine, inside]

/-- A step that a line can do is the one that it does. -/
theorem readLine_of_step {r next : Reader} {line : Nat} {text : List Char}
    (step : Step r line text next) :
    r.readLine line text = .ok next := by
  cases step with
  | skip outside form | declare outside form | global outside form =>
      rw [readLine_outside outside]
      exact bind_eq_ok.mpr ⟨_, atLine_ok form, rfl⟩
  | begin outside form parameters =>
      rw [readLine_outside outside]
      exact bind_eq_ok.mpr ⟨_, atLine_ok form, bind_eq_ok.mpr ⟨_, parameters, rfl⟩⟩
  | close inside form settled =>
      rw [readLine_inside inside]
      refine bind_eq_ok.mpr ⟨_, atLine_ok form, ?_⟩
      simp [endFunction, settled]
  | label inside form =>
      rw [readLine_inside inside]
      exact bind_eq_ok.mpr ⟨_, atLine_ok form, rfl⟩
  | instruction inside form ensured targeted stated filled =>
      rw [readLine_inside inside]
      refine bind_eq_ok.mpr ⟨_, atLine_ok form, bind_eq_ok.mpr ⟨_, ensured, ?_⟩⟩
      refine bind_eq_ok.mpr ⟨_, bind_eq_ok.mpr ⟨_, targeted, bind_eq_ok.mpr ⟨_, stated, rfl⟩⟩, ?_⟩
      rw [filled, ← fill_names]
      rfl

/-- What holds before the first line and is kept by every step holds after the lines that have been
read. -/
theorem invariant_of_readLines {invariant : List (List Char) → Reader → Prop}
    (kept : ∀ before r line text next, invariant before r → Step r line text next →
      invariant (before ++ [text]) next)
    {before : List (List Char)} {lines : List (Nat × List Char)} {r last : Reader}
    (held : invariant before r) (read : r.readLines lines = .ok last) :
    invariant (before ++ lines.map (·.2)) last := by
  induction lines generalizing before r with
  | nil =>
      cases read
      simpa using held
  | cons entry rest ih =>
      obtain ⟨line, text⟩ := entry
      obtain ⟨next, step, more⟩ := bind_eq_ok.mp read
      have after := ih (kept before r line text next held (step_of_readLine step)) more
      simpa using after

end Reader

def contentTexts (text : String) : List (List Char) := (contentLines text.toList).map (·.2)

theorem invariant_of_read (invariant : List (List Char) → Reader → Prop) (start : invariant [] {})
    (kept : ∀ before r line text next, invariant before r → Reader.Step r line text next →
      invariant (before ++ [text]) next)
    {text name : String} {m : Module} (accepted : read text name = .ok m) :
    ∃ r : Reader, invariant (contentTexts text) r ∧ r.draft = none ∧ m.functions = r.functions ∧
      m.globals = r.names.globals := by
  obtain ⟨r, lines, finished⟩ := bind_eq_ok.mp accepted
  have held : invariant ([] ++ contentTexts text) r :=
    Reader.invariant_of_readLines kept start lines
  unfold Reader.finish at finished
  split at finished
  · cases finished
  · next outside =>
      cases finished
      exact ⟨r, held, outside, rfl, rfl⟩

end ValueNumbering.Assembly

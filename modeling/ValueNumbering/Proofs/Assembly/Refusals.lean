import ValueNumbering.Proofs.Dictionaries
import ValueNumbering.Proofs.Assembly.Definitions
import ValueNumbering.Proofs.Assembly.RegularLines

/-!
How a text is refused: with a cause and the number of one of its lines. That holds of all texts with
regular lines only.
-/

namespace ValueNumbering.Assembly

open Text

def Within (last line : Nat) : Prop := 1 ≤ line ∧ line ≤ last

namespace Names

theorem mem_pending_bind {names : Names} {line : Nat} {token : Token} {entry : String × Nat}
    (member : entry ∈ (names.bind line token).2.pending.entries) :
    entry ∈ names.pending.entries ∨ entry.2 = line := by
  cases token with
  | named name =>
      simp only [bind, lookup] at member
      split at member
      · exact Or.inl member
      · rcases Dictionary.mem_entries_insert member with new | old
        · exact Or.inr (congrArg Prod.snd new)
        · exact Or.inl old
  | global name =>
      have same : (names.bind line (.global name)).2.pending = names.pending :=
        (names.global_scope name).2
      exact Or.inl (same ▸ member)
  | literal value type => exact Or.inl member
  | expression key type =>
      have same : (names.bind line (.expression key type)).2.pending = names.pending :=
        (names.expression_scope key type).2.1
      exact Or.inl (same ▸ member)
  | constant text type => exact Or.inl member

theorem mem_pending_bindAll {names : Names} {line : Nat} {tokens : List TypedToken}
    {entry : String × Nat} (member : entry ∈ (names.bindAll line tokens).2.pending.entries) :
    entry ∈ names.pending.entries ∨ entry.2 = line := by
  induction tokens generalizing names with
  | nil => exact Or.inl member
  | cons operand rest ih =>
      rcases ih member with early | here
      · exact mem_pending_bind early
      · exact Or.inr here

theorem pending_defineGlobal (names : Names) (name initializer : String) :
    (names.defineGlobal name initializer).pending = names.pending := (names.global_scope name).2

theorem mem_pending_define {names after : Names} {name : String} {value : Value}
    (defined : names.define name = .ok (value, after)) {entry : String × Nat}
    (member : entry ∈ after.pending.entries) : entry ∈ names.pending.entries := by
  rcases define_cases defined with ⟨-, -, rfl⟩ | ⟨-, -, rfl⟩
  · exact List.mem_of_mem_filter member
  · exact member

end Names

theorem Draft.line_of_ensured {draft ready : Draft} (ensured : draft.ensureBlock = .ok ready) :
    ready.line = draft.line := by
  unfold ensureBlock at ensured
  split at ensured
  · cases ensured
    rfl
  · obtain ⟨name, -, named⟩ := bind_eq_ok.mp ensured
    cases Except.ok.inj named
    rfl

namespace Reader

theorem settled_target {names : Names} {line : Nat} {result : Option (List Char)} :
    Settled (Eq line) (target names line result) := by
  cases result with
  | none => exact .ok _
  | some name => exact .atLine rfl _

theorem settled_instruction {names : Names} {line : Nat} {text mnemonic rest : List Char}
    {result : Option (List Char)} (regular : Regular text)
    (form : BodyLine.read text = .ok (.instruction result mnemonic rest)) :
    Settled (Eq line) (readInstruction names line text result mnemonic rest) := by
  have stated := regular.statement line form
  exact .bind settled_target fun _ _ => stated.bind fun _ _ => .ok _

theorem mem_pending_target {names after : Names} {line : Nat} {result : Option (List Char)}
    {value : Value} (targeted : target names line result = .ok (value, after))
    {entry : String × Nat} (member : entry ∈ after.pending.entries) :
    entry ∈ names.pending.entries := by
  cases result with
  | none =>
      cases targeted
      exact member
  | some name => exact Names.mem_pending_define (ok_of_atLine targeted) member

/-- The lines that a reader can still blame are among so many, and the next slot can be written
where it is needed. -/
structure Sound (last : Nat) (r : Reader) : Prop where
  waiting : ∀ entry ∈ r.names.pending.entries, Within last entry.2
  opened : ∀ draft, r.draft = some draft → Within last draft.line
  slot : ∀ draft, r.draft = some draft → draft.current = none →
    draft.slot < Nat.pow 10 Integer.digitLimit

namespace Sound

variable {last line : Nat} {r next : Reader}

theorem start (last : Nat) : Sound last {} where
  waiting := fun _ member => nomatch member
  opened := fun _ opened => nomatch opened
  slot := fun _ opened => nomatch opened

theorem ensureBlock (sound : Sound last r) {draft : Draft} (inside : r.draft = some draft) :
    ∃ ready, draft.ensureBlock = .ok ready := by
  unfold Draft.ensureBlock
  split
  · exact ⟨draft, rfl⟩
  · next outside =>
      have written := slotText_of_lt (sound.slot draft inside outside)
      exact ⟨_, by rw [written]; rfl⟩

theorem step (sound : Sound last r) (within : Within last line) {text : List Char}
    (regular : Regular text) (step : Step r line text next) : Sound last next := by
  cases step with
  | skip outside form => exact sound
  | declare outside form => exact ⟨sound.waiting, sound.opened, sound.slot⟩
  | global outside form =>
      refine ⟨fun entry member => ?_, sound.opened, sound.slot⟩
      rw [Names.pending_defineGlobal] at member
      exact sound.waiting entry member
  | begin outside form parameters =>
      obtain ⟨slot, pending⟩ := (regular.readParameters form).2 _ parameters
      refine ⟨fun entry member => ?_, fun draft inside => ?_, fun draft inside _ => ?_⟩
      · rw [pending] at member
        cases member
      · cases inside
        exact within
      · cases inside
        exact slot
  | close inside form settled =>
      exact ⟨sound.waiting, (fun _ opened => nomatch opened), (fun _ opened => nomatch opened)⟩
  | @label draft name inside form =>
      refine ⟨sound.waiting, fun opened same => ?_, fun opened same outside => ?_⟩
      · cases same
        exact sound.opened draft inside
      · cases same
        cases outside
  | @instruction draft ready result mnemonic rest value names statement inside form ensured targeted
      stated inst filled =>
      obtain ⟨⟨block, current⟩, -, -⟩ := Draft.ensureBlock_ok ensured
      refine ⟨fun entry member => ?_, fun appended same => ?_, fun appended same outside => ?_⟩
      · rcases Names.mem_pending_bindAll member with early | here
        · exact sound.waiting entry (mem_pending_target targeted early)
        · exact here ▸ within
      · cases same
        change Within last ready.line
        rw [Draft.line_of_ensured ensured]
        exact sound.opened draft inside
      · cases same
        simp only [Draft.append, current, Option.map_some] at outside
        cases outside

theorem endFunction (sound : Sound last r) (draft : Draft) :
    Settled (Within last) (r.endFunction draft) := by
  unfold Reader.endFunction
  split
  · next name line rest waits =>
      have blamed : Within last line := sound.waiting (name, line) (waits ▸ List.mem_cons_self ..)
      exact .refused blamed _
  · exact .ok _

theorem topLine (within : Within last line) {text : List Char} (regular : Regular text) :
    Settled (Within last) (r.topLine line text) := by
  apply Settled.bind (.atLine within _)
  intro top kind
  cases top with
  | skipped => exact .ok _
  | declaration returnType name params => exact .ok _
  | global name initializer => exact .ok _
  | definition returnType name params =>
      have parameters : Settled (Eq line) (readParameters line r.names.newFunction params) :=
        (regular.readParameters (ok_of_atLine kind)).1
      exact .bind (parameters.mono fun _ same => same ▸ within) fun _ _ => .ok _

theorem bodyLine (sound : Sound last r) (within : Within last line) {draft : Draft}
    (inside : r.draft = some draft) {text : List Char} (regular : Regular text) :
    Settled (Within last) (r.bodyLine draft line text) := by
  apply Settled.bind (.atLine within _)
  intro body kind
  have form := ok_of_atLine kind
  cases body with
  | close => exact sound.endFunction draft
  | label name => exact .ok _
  | instruction result mnemonic rest =>
      obtain ⟨ready, ensured⟩ := sound.ensureBlock inside
      have made : Settled (Eq line) (readInstruction r.names line text result mnemonic rest) :=
        settled_instruction regular form
      apply Settled.bind (.of_ok ensured)
      intro ready _
      exact .bind (made.mono fun _ same => same ▸ within) fun _ _ => .ok _

theorem readLine (sound : Sound last r) (within : Within last line) {text : List Char}
    (regular : Regular text) :
    Settled (Within last) (r.readLine line text) := by
  unfold Reader.readLine
  split
  · exact topLine within regular
  · next draft inside => exact sound.bodyLine within inside regular

/-- Regular lines are read to their end, or one of them or an earlier one is to blame. -/
theorem readLines {lines : List (Nat × List Char)} (sound : Sound last r)
    (within : ∀ entry ∈ lines, Within last entry.1) (regular : ∀ entry ∈ lines, Regular entry.2) :
    Settled (Within last) (r.readLines lines) ∧ ∀ after, r.readLines lines = .ok after →
      Sound last after := by
  induction lines generalizing r with
  | nil =>
      refine ⟨.ok r, fun after read => ?_⟩
      cases read
      exact sound
  | cons entry rest ih =>
      -- A later line can blame this one, so the reader has to be sound after it and not only
      -- settled.
      obtain ⟨here, later⟩ := List.forall_mem_cons.mp within
      obtain ⟨first, others⟩ := List.forall_mem_cons.mp regular
      have kept (next : Reader) (read : r.readLine entry.1 entry.2 = .ok next) : Sound last next :=
        sound.step here first (step_of_readLine read)
      constructor
      · exact .bind (sound.readLine here first) fun next read =>
          (ih (kept next read) later others).1
      · intro after read
        obtain ⟨next, one, more⟩ := bind_eq_ok.mp read
        exact (ih (kept next one) later others).2 after more

theorem finish (sound : Sound last r) (name : String) : Settled (Within last) (r.finish name) := by
  unfold Reader.finish
  split
  · next draft inside => exact .refused (sound.opened draft inside) _
  · exact .ok _

end Sound

end Reader

theorem within_of_mem_contentLines {text : List Char} {entry : Nat × List Char}
    (member : entry ∈ contentLines text) :
    Within (lines text).length entry.1 := by
  obtain ⟨numbered, isNumbered, rfl⟩ := List.mem_map.mp (List.mem_of_mem_filter member)
  obtain ⟨line, isLine, rfl⟩ := List.mem_map.mp isNumbered
  obtain ⟨first, last, -⟩ := List.mem_zipIdx isLine
  exact ⟨first, by omega⟩

/-- The reading of a text that ends with a module, or with a cause at one of the lines of the
text. -/
inductive Documented (text : String) : Except Fault Module → Prop
  | accepted (m : Module) : Documented text (.ok m)
  | refused (cause : Cause) {line : Nat} (first : 1 ≤ line)
      (last : line ≤ (lines text.toList).length) :
      Documented text (.error (.refused line cause))

theorem Settled.documented {text : String} {result : Except Fault Module}
    (settled : Settled (Within (lines text.toList).length) result) : Documented text result := by
  cases result with
  | ok m => exact .accepted m
  | error fault =>
      obtain ⟨line, cause, rfl, first, last⟩ := settled fault rfl
      exact .refused cause first last

/-- A text with regular lines only is read to a module or refused at one of its lines. -/
theorem regular_text_documented {text : String} (regular : ∀ line ∈ contentTexts text, Regular line)
    (name : String) :
    Documented text (read text name) := by
  have regular : ∀ entry ∈ contentLines text.toList, Regular entry.2 := fun entry member =>
    regular entry.2 (List.mem_map_of_mem member)
  obtain ⟨settled, sound⟩ := (Reader.Sound.start _).readLines
    (fun _ => within_of_mem_contentLines) regular
  exact (settled.bind fun r read => (sound r read).finish name).documented

def fault? {α : Type} : Except Fault α → Option Fault
  | .ok _ => none
  | .error fault => some fault

theorem error_of_fault? {α : Type} {result : Except Fault α} {fault : Fault}
    (found : fault? result = some fault) :
    result = .error fault := by
  cases result with
  | ok a => cases found
  | error other => exact congrArg Except.error (Option.some.inj found)

def sumWithoutOperand : String :=
  "define i32 @f(i32 %٣, ptr) \x7b\n  %5 = add i32 %٣, %y\n  store i32 -٠٧, ptr %4, align ٨\n  ret i32 %z\n\x7d\n"

theorem sumWithoutOperand_refused : (∀ line ∈ contentTexts sumWithoutOperand, Regular line) ∧
    read sumWithoutOperand = .error (.refused 2 (.undefinedValue "y")) ∧
      Documented sumWithoutOperand (read sumWithoutOperand) := by
  have regular : ∀ line ∈ contentTexts sumWithoutOperand, Regular line := by decide +kernel
  have refused : fault? (read sumWithoutOperand) = some (.refused 2 (.undefinedValue "y")) := by
    decide +kernel
  exact ⟨regular, error_of_fault? refused, regular_text_documented regular "<stdin>"⟩

def emptyParameter : String := "define void @f(i32 %a,,i32 %b) \x7b\n\x7d\n"

/-- A parameter that is named by a digit without a decimal value. -/
def raisedParameter : String := "define void @f(i32 %²) \x7b\n\x7d\n"

theorem irregular_parameters_undocumented :
    ¬ Documented emptyParameter (read emptyParameter) ∧
      ¬ Documented raisedParameter (read raisedParameter) := by
  have empty : fault? (read emptyParameter) = some .emptyParameter := by decide +kernel
  have raised : fault? (read raisedParameter) = some (.integer (.malformed (.ofString "²"))) := by
    decide +kernel
  rw [error_of_fault? empty, error_of_fault? raised]
  constructor
  · rintro ⟨⟩
  · rintro ⟨⟩

end ValueNumbering.Assembly

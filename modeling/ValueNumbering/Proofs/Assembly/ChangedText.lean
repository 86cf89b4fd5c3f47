import ValueNumbering.Proofs.Assembly.ReadingAlike
import ValueNumbering.Proofs.Numbering.DiagnosticLines

/-!
Modules that differ in the text of one instruction. Lines that are read into the one are read into
the other, which then differs in that text still, and numbering, which does not look at texts, takes
the same decisions in both.
-/

namespace ValueNumbering

def OneChanged {α : Type} (R : α → α → Prop) (xs ys : List α) : Prop :=
  ∃ before x y after, xs = before ++ x :: after ∧ ys = before ++ y :: after ∧ R x y

namespace OneChanged

variable {α β : Type} {R : α → α → Prop} {S : β → β → Prop} {xs ys : List α}

theorem last (before : List α) {x y : α} (related : R x y) :
    OneChanged R (before ++ [x]) (before ++ [y]) :=
  ⟨before, x, y, [], rfl, rfl, related⟩

theorem append (changed : OneChanged R xs ys) (more : List α) :
    OneChanged R (xs ++ more) (ys ++ more) := by
  obtain ⟨before, x, y, after, rfl, rfl, related⟩ := changed
  exact ⟨before, x, y, after ++ more, by simp, by simp, related⟩

theorem flatMap (changed : OneChanged R xs ys) {f : α → List β}
    (parts : ∀ x y, R x y → OneChanged S (f x) (f y)) :
    OneChanged S (xs.flatMap f) (ys.flatMap f) := by
  obtain ⟨before, x, y, after, rfl, rfl, related⟩ := changed
  obtain ⟨before', x', y', after', left, right, related'⟩ := parts x y related
  exact ⟨before.flatMap f ++ before', x', y', after' ++ after.flatMap f, by simp [left],
    by simp [right], related'⟩

theorem forall₂ (changed : OneChanged R xs ys) {T : α → α → Prop} (same : ∀ x, T x x)
    (related : ∀ x y, R x y → T x y) :
    List.Forall₂ T xs ys := by
  obtain ⟨before, x, y, after, rfl, rfl, here⟩ := changed
  have unchanged (zs : List α) : List.Forall₂ T zs zs := List.forall₂_same.mpr fun z _ => same z
  exact List.rel_append (unchanged before) (.cons (related x y here) (unchanged after))

end OneChanged

variable {old new : String}

structure Instruction.Retexted (old new : String) (inst inst' : Instruction) : Prop where
  before : inst.text = some old
  after : inst' = { inst with text := some new }

structure Block.Retexted (old new : String) (block block' : Block) : Prop where
  same : block' = { block with instructions := block'.instructions }
  changed : OneChanged (Instruction.Retexted old new) block.instructions block'.instructions

structure Function.Retexted (old new : String) (fn fn' : Function) : Prop where
  same : fn' = { fn with blocks := fn'.blocks }
  changed : OneChanged (Block.Retexted old new) fn.blocks fn'.blocks

/-- A module in which one instruction of one block of one function has another text. -/
structure Module.Retexted (old new : String) (m m' : Module) : Prop where
  same : m' = { m with functions := m'.functions }
  changed : OneChanged (Function.Retexted old new) m.functions m'.functions

theorem Function.Retexted.instructions {fn fn' : Function} (retexted : fn.Retexted old new fn') :
    OneChanged (Instruction.Retexted old new) fn.instructions fn'.instructions :=
  retexted.changed.flatMap fun _ _ related => related.changed

section Numbers

/-- Instructions with one action, whose lines can be written under the same conditions. -/
structure Instruction.NumberedAlike (inst inst' : Instruction) : Prop where
  action : inst.action = inst'.action
  shown : ∀ decision column, (Line.ofDecision inst decision column).map (fun _ => ()) =
    (Line.ofDecision inst' decision column).map fun _ => ()

theorem Instruction.Retexted.numberedAlike {inst inst' : Instruction}
    (retexted : inst.Retexted old new inst') :
    inst.NumberedAlike inst' := by
  obtain ⟨before, rfl⟩ := retexted
  refine ⟨rfl, fun decision column => ?_⟩
  have padded : (Line.padded inst column).map (fun _ => ()) =
      (Line.padded { inst with text := some new } column).map fun _ => () := by
    simp only [Line.padded, Instruction.written, before]
    split <;> rfl
  -- what comes after the text of the instruction does not decide whether there is a line
  have told (i : Instruction) : (Line.ofDecision i decision column).map (fun _ => ()) =
      (Line.padded i column).map fun _ => () := by
    rw [Line.ofDecision_eq]
    cases Line.padded i column <;> rfl
  rw [told, told, padded]

namespace Numbering

/-- Two runs so far with the same numbers and decisions. -/
structure DecidedAlike (n n' : Numbering) : Prop where
  knowledge : n.knowledge = n'.knowledge
  decisions : n.records.map (·.toDecision) = n'.records.map (·.toDecision)

structure Outcome.DecidedAlike (o o' : Outcome) : Prop where
  numbering : o.numbering.DecidedAlike o'.numbering
  fault : o.fault = o'.fault

variable {n n' : Numbering}

theorem DecidedAlike.visit (alike : n.DecidedAlike n') (column : Int) {inst inst' : Instruction}
    (same : inst.NumberedAlike inst') :
    (∃ fault, visit column n inst = .error fault ∧ visit column n' inst' = .error fault) ∨
      ∃ next next', visit column n inst = .ok next ∧ visit column n' inst' = .ok next' ∧
        next.DecidedAlike next' := by
  rw [Numbering.visit, Numbering.visit, ← same.action, ← alike.knowledge]
  cases inst.action with
  | error fault => exact Or.inl ⟨_, rfl, rfl⟩
  | ok action? =>
      cases action? with
      | none => exact Or.inr ⟨n, n', rfl, rfl, alike⟩
      | some action =>
          have shown := same.shown (n.knowledge.perform action).1 column
          dsimp only
          revert shown
          cases Line.ofDecision inst (n.knowledge.perform action).1 column with
          | error fault =>
              cases Line.ofDecision inst' (n.knowledge.perform action).1 column with
              | error fault' =>
                exact fun shown => Or.inl ⟨fault, rfl, by rw [Except.error.inj shown]⟩
              | ok line' =>
                  intro shown
                  cases shown
          | ok line =>
              cases Line.ofDecision inst' (n.knowledge.perform action).1 column with
              | error fault' =>
                  intro shown
                  cases shown
              | ok line' =>
                  refine fun _ => Or.inr ⟨_, _, rfl, rfl, rfl, ?_⟩
                  rw [List.map_append, List.map_append, alike.decisions]
                  rfl

theorem DecidedAlike.visitAll (alike : n.DecidedAlike n') (column : Int)
    {instructions instructions' : List Instruction}
    (same : List.Forall₂ Instruction.NumberedAlike instructions instructions') :
    (visitAll column n instructions).DecidedAlike (visitAll column n' instructions') := by
  induction same generalizing n n' with
  | nil => exact ⟨alike, rfl⟩
  | cons here _ ih =>
      rw [Numbering.visitAll, Numbering.visitAll]
      rcases alike.visit column here with
        ⟨fault, failed, failed'⟩ | ⟨next, next', visited, visited', nextAlike⟩
      · rw [failed, failed']
        exact ⟨alike, rfl⟩
      · rw [visited, visited']
        exact ih nextAlike

end Numbering

theorem Function.Retexted.decidedAlike {fn fn' : Function} (retexted : fn.Retexted old new fn')
    (settings : Numbering.Settings) :
    (Numbering.ofFunction settings fn).DecidedAlike (Numbering.ofFunction settings fn') := by
  apply Numbering.DecidedAlike.visitAll ⟨rfl, rfl⟩ settings.column
  exact retexted.instructions.forall₂ (fun _ => ⟨rfl, fun _ _ => rfl⟩) fun _ _ related =>
    related.numberedAlike

theorem Module.Retexted.decidedAlike {m m' : Module} (retexted : m.Retexted old new m')
    (settings : Numbering.Settings) :
    List.Forall₂ (fun fn fn' => (Numbering.ofFunction settings fn).DecidedAlike
      (Numbering.ofFunction settings fn'))
      m.functions m'.functions :=
  retexted.changed.forall₂ (fun _ => ⟨⟨rfl, rfl⟩, rfl⟩) fun _ _ related =>
    related.decidedAlike settings

end Numbers

namespace Assembly

inductive Draft.Retexted (old new : String) (draft : Draft) : Draft → Prop
  | closed {blocks : List Block}
      (changed : OneChanged (Block.Retexted old new) draft.closed blocks) :
      Retexted old new draft { draft with closed := blocks }
  | current {block block' : Block} (isOpen : draft.current = some block)
      (changed : block.Retexted old new block') :
      Retexted old new draft { draft with current := some block' }

namespace Draft.Retexted

variable {draft draft' ready : Draft}

theorem blocks (retexted : draft.Retexted old new draft') :
    OneChanged (Block.Retexted old new) draft.blocks draft'.blocks := by
  cases retexted with
  | closed changed => exact changed.append _
  | current isOpen changed =>
      rw [Draft.blocks, isOpen]
      exact .last _ changed

theorem function (retexted : draft.Retexted old new draft') :
    draft.function.Retexted old new draft'.function := by
  have changed := retexted.blocks
  cases retexted with
  | closed => exact ⟨rfl, changed⟩
  | current => exact ⟨rfl, changed⟩

theorem openBlock (retexted : draft.Retexted old new draft') (name : String) :
    (draft.openBlock name).Retexted old new (draft'.openBlock name) := by
  have changed := retexted.blocks
  cases retexted with
  | closed => exact .closed changed
  | current => exact .closed changed

theorem ensureBlock (retexted : draft.Retexted old new draft')
    (ensured : draft.ensureBlock = .ok ready) :
    ∃ ready', draft'.ensureBlock = .ok ready' ∧ ready.Retexted old new ready' := by
  cases isOpen : draft.current with
  | some block =>
      rw [Draft.ensureBlock, isOpen] at ensured
      cases ensured
      refine ⟨draft', ?_, retexted⟩
      cases retexted with
      | closed => rw [Draft.ensureBlock, isOpen]
      | current => rfl
  | none =>
      cases retexted with
      | current isOpen' => cases isOpen.symm.trans isOpen'
      | closed changed =>
          rw [Draft.ensureBlock, isOpen] at ensured
          obtain ⟨name, written, made⟩ := bind_eq_ok.mp ensured
          cases made
          refine ⟨_, ?_, .closed (changed.append draft.current.toList)⟩
          rw [Draft.ensureBlock, isOpen]
          exact bind_eq_ok.mpr ⟨name, written, rfl⟩

theorem append (retexted : draft.Retexted old new draft') (inst : Instruction) :
    (draft.append inst).Retexted old new (draft'.append inst) := by
  cases retexted with
  | closed changed => exact .closed changed
  | @current block block' isOpen changed =>
      have isOpen' : (draft.append inst).current =
          some { block with instructions := block.instructions ++ [inst] } := by
        rw [Draft.append, isOpen]
        rfl
      refine .current isOpen' ⟨?_, changed.changed.append [inst]⟩
      rw [changed.same]

theorem of_append {block : Block} (isOpen : draft.current = some block) {inst inst' : Instruction}
    (retexted : inst.Retexted old new inst') :
    (draft.append inst).Retexted old new (draft.append inst') := by
  have isOpen' (last : Instruction) :
      (draft.append last).current =
        some { block with instructions := block.instructions ++ [last] } := by
    rw [Draft.append, isOpen]
    rfl
  have whole : draft.append inst' =
      { draft.append inst with
        current := some { block with instructions := block.instructions ++ [inst'] } } := by
    rw [← isOpen' inst']
    rfl
  rw [whole]
  exact .current (isOpen' inst) ⟨rfl, .last _ retexted⟩

end Draft.Retexted

namespace Reader

theorem fill_retexted (names : Names) (line : Nat) (value : Value) (opcode : Opcode)
    (result : Option (List Char)) (text text' : List Char) (statement : Statement) :
    (fill names line (unfilled value opcode result text) statement).1.Retexted (String.ofList text)
      (String.ofList text')
      (fill names line (unfilled value opcode result text') statement).1 := by
  cases statement <;> exact ⟨rfl, rfl⟩

inductive Retexted (old new : String) (r : Reader) : Reader → Prop
  | closed {functions : List Function}
      (changed : OneChanged (Function.Retexted old new) r.functions functions) :
      Retexted old new r { r with functions := functions }
  | current {draft draft' : Draft} (inside : r.draft = some draft)
      (changed : draft.Retexted old new draft') :
      Retexted old new r { r with draft := some draft' }

namespace Retexted

variable {r r' next last : Reader}

/-- A line does the same to both readers, but for the text that is changed already. -/
theorem step (retexted : r.Retexted old new r') {line : Nat} {text : List Char}
    (step : Step r line text next) :
    ∃ next', Step r' line text next' ∧ next.Retexted old new next' := by
  cases retexted with
  | @closed functions changed =>
      cases step with
      | skip outside form => exact ⟨_, .skip outside form, .closed changed⟩
      | declare outside form => exact ⟨_, .declare outside form, .closed (changed.append _)⟩
      | global outside form => exact ⟨_, .global outside form, .closed changed⟩
      | begin outside form parameters => exact ⟨_, .begin outside form parameters, .closed changed⟩
      | close inside form settled =>
        exact ⟨_, .close inside form settled, .closed (changed.append _)⟩
      | label inside form => exact ⟨_, .label inside form, .closed changed⟩
      | instruction inside form ensured targeted stated filled =>
          exact ⟨_, .instruction (r := { r with functions := functions })
            inside form ensured targeted stated filled, .closed changed⟩
  | @current draft draft' inside changed =>
      cases step with
      | skip outside | declare outside | global outside | begin outside =>
        cases outside.symm.trans inside
      | close inside' form settled =>
          cases inside.symm.trans inside'
          exact ⟨_, .close rfl form settled, .closed (.last _ changed.function)⟩
      | label inside' form =>
          cases inside.symm.trans inside'
          exact ⟨_, .label rfl form, .current rfl (changed.openBlock _)⟩
      | instruction inside' form ensured targeted stated filled =>
          cases inside.symm.trans inside'
          obtain ⟨ready', ensured', readyChanged⟩ := changed.ensureBlock ensured
          exact ⟨_, .instruction (r := { r with draft := some draft' })
            rfl form ensured' targeted stated filled, .current rfl (readyChanged.append _)⟩

theorem readLines (retexted : r.Retexted old new r') {entries : List (Nat × List Char)}
    (read : r.readLines entries = .ok last) :
    ∃ last', r'.readLines entries = .ok last' ∧ last.Retexted old new last' := by
  induction entries generalizing r r' with
  | nil =>
      cases read
      exact ⟨r', rfl, retexted⟩
  | cons entry rest ih =>
      obtain ⟨next, first, more⟩ := bind_eq_ok.mp read
      obtain ⟨next', step', nextRetexted⟩ := retexted.step (step_of_readLine first)
      obtain ⟨last', more', lastRetexted⟩ := ih nextRetexted more
      exact ⟨last', bind_eq_ok.mpr ⟨next', readLine_of_step step', more'⟩, lastRetexted⟩

theorem finish (retexted : r.Retexted old new r') {name : String} {m : Module}
    (finished : r.finish name = .ok m) :
    ∃ m', r'.finish name = .ok m' ∧ m.Retexted old new m' := by
  cases isDraft : r.draft with
  | some draft =>
      rw [Reader.finish, isDraft] at finished
      cases finished
  | none =>
      rw [Reader.finish, isDraft] at finished
      cases finished
      cases retexted with
      | @closed functions changed =>
          have finished' : { r with functions := functions }.finish name =
              .ok { name := name, functions := functions, globals := r.names.globals } := by
            rw [Reader.finish, isDraft]
          exact ⟨_, finished', rfl, changed⟩
      | current inside => cases isDraft.symm.trans inside

end Retexted

end Reader

end Assembly

end ValueNumbering

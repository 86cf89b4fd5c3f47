import Mathlib.Data.List.Nodup
import ValueNumbering.IR.Builder

/-!
What a builder makes of its calls. The log of a run has each call with its answer: the instruction,
the argument or the value that the call describes. It tells which instructions are in the function
that is built, which of them share a block, and what the blocks and the unnamed results are called.
-/

namespace ValueNumbering.Builder

inductive Command
  | argument (name type : String)
  | global (name : String)
  | literal (value : Int) (type : String)
  | block (name : String)
  | alloca (name allocatedType : Option String)
  | store (value pointer : Operand)
  | load (pointer : Operand) (name : Option String) (type : String)
  | binary (opcode : Opcode) (lhs rhs : Operand) (name : Option String) (type : String)
  | ret (value : Option Operand)
  | verbatim (text : String) (name : Option String) (opcode : Opcode)
  | build

inductive Answer
  | argument (arg : Argument)
  | operand (o : Operand)
  | block
  | instruction (inst : Instruction)
  | function (fn : Function)

structure Entry where
  command : Command
  answer : Answer

def answer (b : Builder) : Command → Answer × Builder
  | .argument name type => ((b.argument name type).map .argument id)
  | .global name => (b.global name).map .operand id
  | .literal value type => (b.literal value type).map .operand id
  | .block name => (.block, b.block name)
  | .alloca name type => (b.alloca name type).map .instruction id
  | .store value pointer => (b.store value pointer).map .instruction id
  | .load pointer name type => (b.load pointer name type).map .instruction id
  | .binary opcode lhs rhs name type => (b.binary opcode lhs rhs name type).map .instruction id
  | .ret value => (b.ret value).map .instruction id
  | .verbatim text name opcode => (b.verbatim text name opcode).map .instruction id
  | .build => (.function b.build, b)

def run (b : Builder) : List Command → List Entry × Builder
  | [] => ([], b)
  | command :: rest =>
      let (answer, next) := b.answer command
      let (log, last) := next.run rest
      (⟨command, answer⟩ :: log, last)

def Command.takesSlot : Command → Bool
  | .alloca none _ | .load _ none _ | .binary _ _ _ none _ => true
  | _ => false

namespace Entry

def label? : Entry → Option String
  | ⟨.block name, _⟩ => some name
  | _ => none

def emitted? : Entry → Option Instruction
  | ⟨_, .instruction inst⟩ => some inst
  | _ => none

def argument? : Entry → Option Argument
  | ⟨_, .argument arg⟩ => some arg
  | _ => none

def unnamed? (e : Entry) : Option Instruction := if e.command.takesSlot then e.emitted? else none

end Entry

def resultName (slot : Nat) (name : Option String) : String := name.getD (toString slot)

/-- What a call is answered by where so many results before it had no name. An instruction holds
what the call says, and nothing but its number besides. -/
inductive Answers (slot : Nat) : Command → Answer → Prop
  | argument (id : Nat) {name type : String} :
      Answers slot (.argument name type) (.argument ⟨id, name, type⟩)
  | global (id : Nat) {name : String} :
      Answers slot (.global name) (.operand ⟨"ptr", ⟨id, .global name "ptr"⟩⟩)
  | literal (id : Nat) {value : Int} {type : String} :
      Answers slot (.literal value type) (.operand ⟨type, ⟨id, .literal value type⟩⟩)
  | block {name : String} : Answers slot (.block name) .block
  | alloca (id : Nat) {name type : Option String} :
      Answers slot (.alloca name type) (.instruction
        { id := id, opcode := .alloca, operands := [], type := "ptr",
          name := some (resultName slot name), flags := [], align := some 4, allocatedType := type,
          text := none })
  | store (id : Nat) {value pointer : Operand} :
      Answers slot (.store value pointer) (.instruction
        { id := id, opcode := .store, operands := [value, pointer], type := "void", name := none,
          flags := [], align := some 4, allocatedType := none, text := none })
  | load (id : Nat) {pointer : Operand} {name : Option String} {type : String} :
      Answers slot (.load pointer name type) (.instruction
        { id := id, opcode := .load, operands := [pointer], type := type,
          name := some (resultName slot name), flags := [], align := some 4, allocatedType := none,
          text := none })
  | binary (id : Nat) {opcode : Opcode} {lhs rhs : Operand} {name : Option String} {type : String} :
      Answers slot (.binary opcode lhs rhs name type) (.instruction
        { id := id, opcode := opcode, operands := [lhs, rhs], type := type,
          name := some (resultName slot name), flags := [], align := none, allocatedType := none,
          text := none })
  | ret (id : Nat) {value : Option Operand} :
      Answers slot (.ret value) (.instruction
        { id := id, opcode := .ret, operands := value.toList, type := "void", name := none,
          flags := [], align := none, allocatedType := none, text := none })
  | verbatim (id : Nat) {text : String} {name : Option String} {opcode : Opcode} :
      Answers slot (.verbatim text name opcode) (.instruction
        { id := id, opcode := opcode, operands := [], type := "i32", name := name, flags := [],
          align := none, allocatedType := none, text := some text })
  | build {fn : Function} : Answers slot .build (.function fn)

/-- A function as the calls say. Each call is answered by what it describes. The function has the
emitted instructions in order, each once and in a block; two of them share their block where no call
between them names another; a block has the last name that was given before its first instruction;
the arguments are those that were asked for; and the unnamed results count the slots. -/
structure AsCalled (log : List Entry) (fn : Function) : Prop where
  answers : ∀ before e after, log = before ++ e :: after →
    Answers (before.countP (·.command.takesSlot)) e.command e.answer
  nonempty : ∀ block ∈ fn.blocks, block.instructions ≠ []
  inOrder : fn.instructions = log.filterMap (·.emitted?)
  distinct : (fn.instructions.map (·.id)).Nodup
  together : ∀ before first between second after inst next,
    log = before ++ first :: (between ++ second :: after) →
    first.emitted? = some inst → second.emitted? = some next →
      ((∃ block ∈ fn.blocks, inst ∈ block.instructions ∧ next ∈ block.instructions) ↔
        between.filterMap (·.label?) = [])
  labels : ∀ block ∈ fn.blocks, ∃ before entry after inst more, log = before ++ entry :: after ∧
    entry.emitted? = some inst ∧
    block.instructions = inst :: more ∧
      block.name = (before.filterMap (·.label?)).getLast?.getD "entry"
  arguments : fn.arguments = log.filterMap (·.argument?)
  slots : (log.filterMap (·.unnamed?)).map (·.name) =
    (List.range (log.filterMap (·.unnamed?)).length).map fun slot => some (toString slot)

structure Step (b : Builder) (e : Entry) (next : Builder) : Prop where
  layout : (next.closed, next.current) =
    match e.label? with
    | some name => ((b.block name).closed, (b.block name).current)
    | none =>
      (b.closed, { b.current with instructions := b.current.instructions ++ e.emitted?.toList })
  quiet : ∀ name, e.label? = some name → e.emitted? = none
  arguments : next.arguments = b.arguments ++ e.argument?.toList
  id : ∀ inst, e.emitted? = some inst → inst.id = b.nextId
  later : b.nextId + e.emitted?.toList.length ≤ next.nextId
  slot : next.nextSlot = b.nextSlot + e.unnamed?.toList.length
  named : ∀ inst, e.unnamed? = some inst → inst.name = some (toString b.nextSlot)

theorem block_eq (b : Builder) (name : String) :
    ∃ closed current, b.block name = { b with closed := closed, current := current } := by
  unfold block
  split
  · exact ⟨b.closed, _, rfl⟩
  · exact ⟨_, _, rfl⟩

theorem step_answer (b : Builder) (command : Command) :
    Step b ⟨command, (b.answer command).1⟩ (b.answer command).2 := by
  cases command with
  | block name =>
      obtain ⟨closed, current, same⟩ := b.block_eq name
      constructor <;>
        simp [answer, Entry.label?, Entry.emitted?, Entry.argument?, Entry.unnamed?, same]
  | alloca name | load _ name | binary _ _ _ name =>
      cases name <;> constructor <;>
        simp [answer, Entry.label?, Entry.emitted?, Entry.argument?, Entry.unnamed?,
          Command.takesSlot, alloca, load, binary, slotName, emit, append, freshId]
  | _ =>
      constructor <;> simp [answer, Entry.label?, Entry.emitted?, Entry.argument?, Entry.unnamed?,
        Command.takesSlot, argument, global,
        literal, value, store, ret, verbatim, emit, append, freshId]

theorem answers_answer (b : Builder) (command : Command) :
    Answers b.nextSlot command (b.answer command).1 := by
  cases command with
  | argument name type => exact .argument _
  | global name => exact .global _
  | literal value type => exact .literal _
  | block name => exact .block
  | alloca name type => cases name <;> exact .alloca _
  | store value pointer => exact .store _
  | load pointer name type => cases name <;> exact .load _
  | binary opcode lhs rhs name type => cases name <;> exact .binary _
  | ret value => exact .ret _
  | verbatim text name opcode => exact .verbatim _
  | build => exact .build

theorem nextSlot_answer (b : Builder) (command : Command) :
    (b.answer command).2.nextSlot = b.nextSlot + if command.takesSlot then 1 else 0 := by
  cases command with
  | block name =>
      obtain ⟨closed, current, same⟩ := b.block_eq name
      simp [answer, Command.takesSlot, same]
  | alloca name | load _ name | binary _ _ _ name => cases name <;> rfl
  | _ => rfl

theorem filterMap_cons_toList {α β : Type} (f : α → Option β) (x : α) (xs : List α) :
    (x :: xs).filterMap f = (f x).toList ++ xs.filterMap f := by
  cases found : f x <;> simp [found]

section Runs

variable (b : Builder) (commands : List Command)

theorem run_commands : (b.run commands).1.map (·.command) = commands := by
  induction commands generalizing b with
  | nil => rfl
  | cons command rest ih => simp [run, ih]

theorem run_append (more : List Command) :
    b.run (commands ++ more) =
      ((b.run commands).1 ++ ((b.run commands).2.run more).1, ((b.run commands).2.run more).2) := by
  induction commands generalizing b with
  | nil => rfl
  | cons command rest ih => simp [run, ih]

theorem answers_run {before after : List Entry} {e : Entry}
    (split : (b.run commands).1 = before ++ e :: after) :
    Answers (b.nextSlot + before.countP (·.command.takesSlot)) e.command e.answer := by
  induction commands generalizing b before with
  | nil => simp [run] at split
  | cons command rest ih =>
      rw [run] at split
      cases before with
      | nil =>
          obtain ⟨rfl, -⟩ := List.cons.inj split
          exact b.answers_answer command
      | cons first earlier =>
          obtain ⟨rfl, others⟩ := List.cons.inj split
          have later := ih _ others
          rw [nextSlot_answer, Nat.add_assoc, Nat.add_comm (ite _ _ _)] at later
          rwa [List.countP_cons]

def Quiet (log : List Entry) : Prop := ∀ e ∈ log, ∀ name, e.label? = some name → e.emitted? = none

theorem quiet_run : Quiet (b.run commands).1 := by
  induction commands generalizing b with
  | nil => simp [Quiet, run]
  | cons command rest ih =>
      rw [run]
      exact List.forall_mem_cons.mpr ⟨(b.step_answer command).quiet, ih _⟩

theorem arguments_run :
    (b.run commands).2.arguments = b.arguments ++ (b.run commands).1.filterMap (·.argument?) := by
  induction commands generalizing b with
  | nil => simp [run]
  | cons command rest ih =>
      rw [run, filterMap_cons_toList, ← List.append_assoc, ← (b.step_answer command).arguments]
      exact ih _

theorem ids_run : (∀ inst ∈ (b.run commands).1.filterMap (·.emitted?), b.nextId ≤ inst.id) ∧
    (((b.run commands).1.filterMap (·.emitted?)).map (·.id)).Nodup := by
  induction commands generalizing b with
  | nil => simp [run]
  | cons command rest ih =>
      obtain ⟨later, distinct⟩ := ih (b.answer command).2
      have step := b.step_answer command
      rw [run, filterMap_cons_toList]
      cases emitted : Entry.emitted? ⟨command, (b.answer command).1⟩ with
      | none =>
          rw [Option.toList_none, List.nil_append]
          exact ⟨fun inst member => Nat.le_trans (by simpa [emitted] using step.later)
            (later inst member), distinct⟩
      | some inst =>
          have number : inst.id = b.nextId := step.id inst emitted
          have next : b.nextId + 1 ≤ (b.answer command).2.nextId := by
            simpa [emitted] using step.later
          rw [Option.toList_some, List.singleton_append, List.map_cons, List.nodup_cons,
            List.forall_mem_cons]
          refine ⟨⟨by omega, fun other member => ?_⟩, fun again => ?_, distinct⟩
          · have := later other member
            omega
          · obtain ⟨other, member, same⟩ := List.mem_map.mp again
            have := later other member
            omega

theorem slots_run : ((b.run commands).1.filterMap (·.unnamed?)).map (·.name) =
    (List.range' b.nextSlot ((b.run commands).1.filterMap (·.unnamed?)).length).map fun slot =>
      some (toString slot) := by
  induction commands generalizing b with
  | nil => rfl
  | cons command rest ih =>
      have step := b.step_answer command
      have later := ih (b.answer command).2
      rw [run, filterMap_cons_toList]
      rw [step.slot] at later
      cases taken : Entry.unnamed? ⟨command, (b.answer command).1⟩ with
      | none => simpa [taken] using later
      | some inst =>
          have name := step.named inst taken
          simp only [taken, Option.toList_some, List.length_singleton] at later
          simp [List.range'_succ, name, later]

end Runs

/-- The blocks that calls lead to, the first of which is open already. -/
def sections (current : Block) : List Entry → List Block
  | [] => [current]
  | e :: rest =>
      match e.label? with
      | some name => current :: sections ⟨name, []⟩ rest
      | none =>
        sections { current with instructions := current.instructions ++ e.emitted?.toList } rest

section Sections

variable {current : Block} {log before after : List Entry} {e : Entry} {name : String}

theorem sections_cons_label (label : e.label? = some name) (rest : List Entry) :
    sections current (e :: rest) = current :: sections ⟨name, []⟩ rest := by
  rw [sections, label]

theorem sections_cons_other (other : e.label? = none) (rest : List Entry) :
    sections current (e :: rest) =
      sections { current with instructions := current.instructions ++ e.emitted?.toList } rest := by
  rw [sections, other]

/-- The blocks of a run: a block that is still empty when the next one begins is as good as none. -/
theorem blocks_run (b : Builder) (commands : List Command) :
    (b.run commands).2.blocks =
      (b.closed ++ sections b.current (b.run commands).1).filter fun block =>
        !block.instructions.isEmpty := by
  induction commands generalizing b with
  | nil => rfl
  | cons command rest ih =>
      have step := (b.step_answer command).layout
      rw [run, ih]
      cases label : Entry.label? ⟨command, (b.answer command).1⟩ with
      | some name =>
          simp only [label, Prod.mk.injEq] at step
          rw [sections_cons_label label, step.1, step.2, block]
          split
          · next empty =>
              have same : (⟨name, b.current.instructions⟩ : Block) = ⟨name, []⟩ := by
                rw [List.isEmpty_iff.mp empty]
              simp [empty, same]
          · simp
      | none =>
          simp only [label, Prod.mk.injEq] at step
          rw [sections_cons_other label, step.1, step.2]

theorem sections_append (current : Block) (before after : List Entry) :
    ∃ closed last, sections current before = closed ++ [last] ∧
      sections current (before ++ after) = closed ++ sections last after := by
  induction before generalizing current with
  | nil => exact ⟨[], current, rfl, rfl⟩
  | cons e rest ih =>
      cases label : e.label? with
      | some name =>
          obtain ⟨closed, last, parts, whole⟩ := ih ⟨name, []⟩
          exact ⟨current :: closed, last, by rw [sections_cons_label label, parts]; rfl,
            by rw [List.cons_append, sections_cons_label label, whole]; rfl⟩
      | none =>
          obtain ⟨closed, last, parts, whole⟩ :=
            ih { current with instructions := current.instructions ++ e.emitted?.toList }
          exact ⟨closed, last, by rw [sections_cons_other label, parts],
            by rw [List.cons_append, sections_cons_other label, whole]⟩

/-- Nothing crosses from one block into the next. -/
theorem sections_append_label (label : e.label? = some name) :
    sections current (before ++ e :: after) =
      sections current before ++ sections ⟨name, []⟩ after := by
  obtain ⟨closed, last, parts, whole⟩ := sections_append current before (e :: after)
  rw [whole, parts, sections_cons_label label, List.append_assoc, List.singleton_append]

theorem sections_append_unlabelled (none : before.filterMap (·.label?) = []) :
    sections current (before ++ after) =
      sections
        { current with instructions := current.instructions ++ before.filterMap (·.emitted?) }
        after := by
  induction before generalizing current with
  | nil => simp
  | cons e rest ih =>
      obtain ⟨here, later⟩ := List.append_eq_nil_iff.mp
        ((filterMap_cons_toList (·.label?) e rest).symm.trans none)
      rw [List.cons_append, sections_cons_other (by simpa using here), ih later,
        filterMap_cons_toList, List.append_assoc]

theorem exists_head_sections (current : Block) (log : List Entry) :
    ∃ more rest, sections current log =
      { current with instructions := current.instructions ++ more } :: rest := by
  induction log generalizing current with
  | nil => exact ⟨[], [], by simp [sections]⟩
  | cons e rest ih =>
      cases label : e.label? with
      | some name => exact ⟨[], sections ⟨name, []⟩ rest, by simp [sections_cons_label label]⟩
      | none =>
          obtain ⟨more, others, whole⟩ :=
            ih { current with instructions := current.instructions ++ e.emitted?.toList }
          exact ⟨e.emitted?.toList ++ more, others, by
            rw [sections_cons_other label, whole, List.append_assoc]⟩

theorem instructions_sections (quiet : Quiet log) :
    (sections current log).flatMap (·.instructions) =
      current.instructions ++ log.filterMap (·.emitted?) := by
  induction log generalizing current with
  | nil => simp [sections]
  | cons e rest ih =>
      obtain ⟨here, later⟩ := List.forall_mem_cons.mp quiet
      rw [filterMap_cons_toList]
      cases label : e.label? with
      | some name => simp [sections_cons_label label, ih later, here name label]
      | none => rw [sections_cons_other label, ih later, List.append_assoc]

theorem begun_of_mem_sections {block : Block} (member : block ∈ sections current log)
    (nonempty : block.instructions ≠ []) :
    (∃ inst more more', current.instructions = inst :: more ∧
      block = ⟨current.name, inst :: more'⟩) ∨
    ∃ before entry after inst more, log = before ++ entry :: after ∧ entry.emitted? = some inst ∧
      block.instructions = inst :: more ∧
        block.name = (before.filterMap (·.label?)).getLast?.getD current.name := by
  induction log generalizing current with
  | nil =>
      obtain rfl := List.mem_singleton.mp member
      obtain ⟨inst, more, instructions⟩ := List.exists_cons_of_ne_nil nonempty
      exact .inl ⟨inst, more, more, instructions, by rw [← instructions]⟩
  | cons e rest ih =>
      cases label : e.label? with
      | some name =>
          rw [sections_cons_label label] at member
          rcases List.mem_cons.mp member with rfl | later
          · obtain ⟨inst, more, instructions⟩ := List.exists_cons_of_ne_nil nonempty
            exact .inl ⟨inst, more, more, instructions, by rw [← instructions]⟩
          · rcases ih later with ⟨_, _, _, none, -⟩ | ⟨before, entry, after, inst, more, split,
              emits, first, named⟩
            · cases none
            · refine .inr ⟨e :: before, entry, after, inst, more, by rw [split]; rfl, emits,
                first, ?_⟩
              rw [named, List.filterMap_cons_some label, List.getLast?_cons]
              rfl
      | none =>
          rw [sections_cons_other label] at member
          rcases ih member with ⟨inst, more, more', opened, isBlock⟩ | ⟨before, entry, after, inst,
            more, split, emits, first, named⟩
          · cases instructions : current.instructions with
            | cons head tail =>
                rw [instructions] at opened
                obtain rfl := (List.cons.inj opened).1
                exact .inl ⟨_, tail, more', rfl, isBlock⟩
            | nil =>
                -- The block that was open is empty, so this emission is the first one in it.
                rw [instructions, List.nil_append] at opened
                have emits : e.emitted? = some inst := by
                  cases emitted : e.emitted? with
                  | none => simp [emitted] at opened
                  | some found =>
                      rw [emitted] at opened
                      rw [(List.cons.inj opened).1]
                exact .inr ⟨[], e, rest, inst, more', rfl, emits, by rw [isBlock], by
                  rw [isBlock]; rfl⟩
          · refine .inr ⟨e :: before, entry, after, inst, more, by rw [split]; rfl, emits,
              first, ?_⟩
            rw [named, List.filterMap_cons_none label]

end Sections

section Built

variable {current : Block} {log before between after : List Entry} {first second : Entry}
    {inst next : Instruction}

theorem instructions_filter_nonempty (blocks : List Block) :
    (blocks.filter fun block => !block.instructions.isEmpty).flatMap (·.instructions) =
      blocks.flatMap (·.instructions) := by
  induction blocks with
  | nil => rfl
  | cons block rest ih =>
      cases instructions : block.instructions <;> simp [instructions, ih]

theorem mem_emitted {e : Entry} (member : e ∈ log) (emits : e.emitted? = some inst) :
    inst ∈ log.filterMap (·.emitted?) :=
  List.mem_filterMap.mpr ⟨e, member, emits⟩

theorem exists_shared_section (current : Block) (before after : List Entry)
    (quiet : Quiet (first :: (between ++ [second]))) (emits : first.emitted? = some inst)
    (emits' : second.emitted? = some next) (unlabelled : between.filterMap (·.label?) = []) :
    ∃ block ∈ sections current (before ++ first :: (between ++ second :: after)),
      inst ∈ block.instructions ∧ next ∈ block.instructions := by
  have noLabel : ∀ e ∈ first :: (between ++ [second]), ∀ inst, e.emitted? = some inst →
      e.label? = none := by
    intro e member inst emits
    cases label : e.label? with
    | none => rfl
    | some name => cases (quiet e member name label).symm.trans emits
  have here := noLabel first (by simp) inst emits
  have there := noLabel second (by simp) next emits'
  have none : (first :: (between ++ [second])).filterMap (·.label?) = [] := by
    simp [here, there, unlabelled]
  obtain ⟨closed, last, -, whole⟩ :=
    sections_append current before (first :: (between ++ second :: after))
  have regroup : first :: (between ++ second :: after) =
      (first :: (between ++ [second])) ++ after := by simp
  obtain ⟨more, rest, opened⟩ := exists_head_sections
    { last with instructions :=
        last.instructions ++ (first :: (between ++ [second])).filterMap (·.emitted?) }
    after
  rw [whole, regroup, sections_append_unlabelled none, opened]
  refine ⟨_, List.mem_append_right _ (List.mem_cons_self ..), ?_, ?_⟩
  · have member : inst ∈ (first :: (between ++ [second])).filterMap (·.emitted?) :=
      mem_emitted (by simp) emits
    simp only [List.mem_append]
    exact .inl (.inr member)
  · have member : next ∈ (first :: (between ++ [second])).filterMap (·.emitted?) :=
      mem_emitted (by simp) emits'
    simp only [List.mem_append]
    exact .inl (.inr member)

theorem not_shared_section {e : Entry} {name : String} (label : e.label? = some name)
    (quiet : Quiet (before ++ e :: after))
    (distinct : (((before ++ e :: after).filterMap (·.emitted?)).map (·.id)).Nodup)
    (left : inst ∈ before.filterMap (·.emitted?)) (right : next ∈ after.filterMap (·.emitted?))
    {block : Block} (member : block ∈ sections ⟨"entry", []⟩ (before ++ e :: after)) :
    ¬(inst ∈ block.instructions ∧ next ∈ block.instructions) := by
  rintro ⟨holds, holds'⟩
  obtain ⟨quietBefore, quietRest⟩ := List.forall_mem_append.mp quiet
  obtain ⟨silent, quietAfter⟩ := List.forall_mem_cons.mp quietRest
  rw [List.filterMap_append, List.filterMap_cons_none (silent name label),
    List.map_append] at distinct
  have apart := (List.nodup_append.mp distinct).2.2
  rw [sections_append_label label] at member
  rcases List.mem_append.mp member with earlier | later
  · have found : next ∈ (sections ⟨"entry", []⟩ before).flatMap (·.instructions) :=
      List.mem_flatMap.mpr ⟨block, earlier, holds'⟩
    rw [instructions_sections quietBefore, List.nil_append] at found
    exact apart next.id (List.mem_map_of_mem found) next.id (List.mem_map_of_mem right) rfl
  · have found : inst ∈ (sections ⟨name, []⟩ after).flatMap (·.instructions) :=
      List.mem_flatMap.mpr ⟨block, later, holds⟩
    rw [instructions_sections quietAfter, List.nil_append] at found
    exact apart inst.id (List.mem_map_of_mem left) inst.id (List.mem_map_of_mem found) rfl

theorem shared_section_iff
    (quiet : Quiet (before ++ first :: (between ++ second :: after)))
    (distinct : (((before ++ first :: (between ++ second :: after)).filterMap
      (·.emitted?)).map (·.id)).Nodup)
    (emits : first.emitted? = some inst) (emits' : second.emitted? = some next) :
    (∃ block ∈ sections ⟨"entry", []⟩ (before ++ first :: (between ++ second :: after)),
      inst ∈ block.instructions ∧ next ∈ block.instructions) ↔
    between.filterMap (·.label?) = [] := by
  constructor
  · rintro ⟨block, isSection, holds⟩
    by_contra labelled
    obtain ⟨label, isLabel⟩ := List.exists_mem_of_ne_nil _ labelled
    obtain ⟨e, isBetween, label⟩ := List.mem_filterMap.mp isLabel
    obtain ⟨earlier, later, rfl⟩ := List.append_of_mem isBetween
    have regroup : before ++ first :: (earlier ++ e :: later ++ second :: after) =
        (before ++ first :: earlier) ++ e :: (later ++ second :: after) := by simp
    rw [regroup] at quiet distinct isSection
    have left : inst ∈ (before ++ first :: earlier).filterMap (·.emitted?) :=
      mem_emitted (by simp) emits
    have right : next ∈ (later ++ second :: after).filterMap (·.emitted?) :=
      mem_emitted (by simp) emits'
    exact not_shared_section label quiet distinct left right isSection holds
  · intro unlabelled
    have quietPart : Quiet (first :: (between ++ [second])) := by
      intro e member
      refine quiet e ?_
      simp only [List.mem_append, List.mem_cons, List.not_mem_nil, or_false] at member ⊢
      tauto
    exact exists_shared_section ⟨"entry", []⟩ before after quietPart emits emits' unlabelled

def start (name returnType : String) : Builder := { name := name, returnType := returnType }

theorem blocks_build (name returnType : String) (commands : List Command) :
    ((start name returnType).run commands).2.build.blocks =
      (sections ⟨"entry", []⟩ ((start name returnType).run commands).1).filter fun block =>
        !block.instructions.isEmpty := by
  have blocks := (start name returnType).blocks_run commands
  rwa [start, List.nil_append] at blocks

theorem asCalled_build (name returnType : String) (commands : List Command) :
    AsCalled ((start name returnType).run commands).1
      ((start name returnType).run commands).2.build := by
  have blocks := blocks_build name returnType commands
  have answers : ∀ before e after,
      ((start name returnType).run commands).1 = before ++ e :: after →
        Answers (0 + before.countP (·.command.takesSlot)) e.command e.answer :=
    fun _ _ _ => answers_run (start name returnType) commands
  have quiet := quiet_run (start name returnType) commands
  have distinct := (ids_run (start name returnType) commands).2
  have arguments := arguments_run (start name returnType) commands
  have slots := slots_run (start name returnType) commands
  have inBlocks : ∀ {block}, block ∈ ((start name returnType).run commands).2.build.blocks ↔
      block ∈ sections ⟨"entry", []⟩ ((start name returnType).run commands).1 ∧
        block.instructions ≠ [] := by
    intro block
    rw [blocks, List.mem_filter]
    simp
  have inOrder : ((start name returnType).run commands).2.build.instructions =
      ((start name returnType).run commands).1.filterMap (·.emitted?) := by
    rw [Function.instructions, blocks, instructions_filter_nonempty, instructions_sections quiet,
      List.nil_append]
  generalize ((start name returnType).run commands).1 = log at *
  constructor
  case answers =>
    intro before e after split
    have answered := answers before e after split
    rwa [Nat.zero_add] at answered
  case nonempty => exact fun block member => (inBlocks.mp member).2
  case inOrder => exact inOrder
  case distinct => rwa [inOrder]
  case arguments => exact arguments
  case slots =>
    rw [List.range_eq_range']
    exact slots
  case labels =>
    intro block member
    obtain ⟨isSection, nonempty⟩ := inBlocks.mp member
    rcases begun_of_mem_sections isSection nonempty with ⟨_, _, _, none, -⟩ | begun
    · cases none
    · exact begun
  case together =>
    rintro before first between second after inst next rfl emits emits'
    rw [← shared_section_iff quiet distinct emits emits']
    constructor
    · rintro ⟨block, member, holds⟩
      exact ⟨block, (inBlocks.mp member).1, holds⟩
    · rintro ⟨block, isSection, holds⟩
      exact ⟨block, inBlocks.mpr ⟨isSection, List.ne_nil_of_mem holds.1⟩, holds⟩

/-- Wherever a function is built among the calls, it is made of the calls before: its blocks hold
the emitted instructions in order, each once, and another block begins just where one is named. -/
theorem built_as_called (name returnType : String) (earlier later : List Command) :
    ∃ log fn rest, ((start name returnType).run (earlier ++ .build :: later)).1 =
      log ++ ⟨.build, .function fn⟩ :: rest ∧
      log.map (·.command) = earlier ∧ rest.map (·.command) = later ∧ AsCalled log fn := by
  refine ⟨_, _, (((start name returnType).run earlier).2.run later).1, ?_, run_commands _ earlier,
    run_commands _ later, asCalled_build name returnType earlier⟩
  rw [run_append]
  rfl

/-- Calls that name a block twice, leave results unnamed in two blocks, and go on after the
build. -/
def earlierCalls : List Command :=
  [.argument "p" "ptr", .block "first", .block "second", .alloca none (some "i32"),
    .load ⟨"ptr", ⟨0, .argument "p" "ptr"⟩⟩ (some "a") "i32", .block "third",
    .verbatim "call void @g()" none .call, .alloca none none, .block "last"]

def outline (fn : Function) : List (String × List (Opcode × Option String)) :=
  fn.blocks.map fun block => (block.name, block.instructions.map fun inst =>
    (inst.opcode, inst.name))

theorem earlierCalls_built : ∃ log fn rest,
    ((start "f" "void").run (earlierCalls ++ .build :: [.ret none])).1 =
      log ++ ⟨.build, .function fn⟩ :: rest ∧
    AsCalled log fn ∧ fn.arguments.map (·.name) = ["p"] ∧
    outline fn = [("second", [(.alloca, some "0"), (.load, some "a")]),
      ("third", [(.call, none), (.alloca, some "1")])] := by
  obtain ⟨log, fn, rest, split, commands, -, asCalled⟩ :=
    built_as_called "f" "void" earlierCalls [.ret none]
  have length : log.length = earlierCalls.length := by rw [← commands, List.length_map]
  have isBuild : ((start "f" "void").run (earlierCalls ++ .build :: [.ret none])).1[log.length]? =
      some ⟨.build, .function fn⟩ := by
    rw [split, List.getElem?_append_right (Nat.le_refl _), Nat.sub_self, List.getElem?_cons_zero]
  rw [length] at isBuild
  obtain rfl : ((start "f" "void").run earlierCalls).2.build = fn := by
    cases isBuild
    rfl
  exact ⟨log, _, rest, split, asCalled, rfl, by decide⟩

end Built

end ValueNumbering.Builder

import Mathlib.Data.Set.Function
import ValueNumbering.Proofs.Numbering.Renaming

/-!
What numbering depends on: the opcodes, the values of literals, and which operands and instructions
are one object. Two functions that are the same in these have the same decisions, the same table and
the same next number.
-/

namespace ValueNumbering

namespace Action

def map (h : Value → Value) : Action → Action
  | .store value pointer => .store (h value) (h pointer)
  | .load result pointer => .load (h result) (h pointer)
  | .binary opcode result lhs rhs => .binary opcode (h result) (h lhs) (h rhs)

def values : Action → List Value
  | .store value pointer => [value, pointer]
  | .load result pointer => [result, pointer]
  | .binary _ result lhs rhs => [result, lhs, rhs]

theorem alike_map {shareLiterals : Bool} {ρ : Value → Value → Prop} {h : Value → Value}
    {action : Action} (partners : ∀ v ∈ action.values, ρ v (h v)) (before before' : List Action) :
    Alike shareLiterals ρ before before' action (action.map h) := by
  cases action with
  | store value pointer =>
      have pointer' := partners pointer (by simp [values])
      exact .store (.partners (partners value (by simp [values]))) (.inl pointer')
  | load result pointer =>
      have pointer' := partners pointer (by simp [values])
      exact .load (partners result (by simp [values])) (.inl pointer')
  | binary opcode result lhs rhs =>
      have left := partners lhs (by simp [values])
      have right := partners rhs (by simp [values])
      exact .binary (partners result (by simp [values])) (.partners left) (.partners right)

end Action

namespace Instruction

/-- The second instruction is the first one on other values. What it is called, its type and its
text do not count. -/
structure MappedTo (h : Value → Value) (inst inst' : Instruction) : Prop where
  opcode : inst'.opcode = inst.opcode
  result : inst'.result = h inst.result
  operands : inst'.operands.map (·.value) = inst.operands.map fun operand => h operand.value

variable {h : Value → Value} {inst inst' : Instruction}

theorem MappedTo.valueOperand (mapped : inst.MappedTo h inst') :
    inst'.valueOperand.map (·.value) = inst.valueOperand.map fun operand => h operand.value := by
  have first := congrArg List.head? mapped.operands
  rw [List.head?_map, List.head?_map] at first
  unfold Instruction.valueOperand
  cases found : inst.operands.head? <;> cases found' : inst'.operands.head? <;>
    simp_all [Except.map]

theorem MappedTo.pointerOperand (mapped : inst.MappedTo h inst') :
    inst'.pointerOperand.map (·.value) = inst.pointerOperand.map fun operand =>
      h operand.value := by
  have last := congrArg List.getLast? mapped.operands
  rw [List.getLast?_map, List.getLast?_map] at last
  unfold Instruction.pointerOperand
  cases found : inst.operands.getLast? <;> cases found' : inst'.operands.getLast? <;>
    simp_all [Except.map]

theorem MappedTo.twoOperands (mapped : inst.MappedTo h inst') :
    inst'.twoOperands.map (fun both => (both.1.value, both.2.value)) =
      inst.twoOperands.map fun both => (h both.1.value, h both.2.value) := by
  have operands := mapped.operands
  have count : inst'.operands.length = inst.operands.length := by
    rw [← List.length_map (·.value), operands, List.length_map]
  unfold Instruction.twoOperands
  split
  · next lhs' rhs' both' =>
      obtain ⟨lhs, rhs, both⟩ := List.length_eq_two.mp (count.symm.trans (by simp [both']))
      simp_all [Except.map]
  · next notTwo' =>
      split
      · next lhs rhs both =>
          obtain ⟨lhs', rhs', both'⟩ := List.length_eq_two.mp (count.trans (by simp [both]))
          exact absurd both' (notTwo' lhs' rhs')
      · rw [count]
        rfl

theorem MappedTo.action (mapped : inst.MappedTo h inst') :
    inst'.action = inst.action.map (Option.map (Action.map h)) := by
  have value := mapped.valueOperand
  have pointer := mapped.pointerOperand
  have both := mapped.twoOperands
  unfold Instruction.action
  rw [mapped.opcode]
  split
  · cases first : inst.valueOperand <;> cases first' : inst'.valueOperand <;>
      cases last : inst.pointerOperand <;>
      cases last' : inst'.pointerOperand <;>
      simp_all [Except.map, bind, Except.bind, pure, Except.pure, Action.map]
  · cases last : inst.pointerOperand <;> cases last' : inst'.pointerOperand <;>
      simp_all [Except.map, bind, Except.bind, pure, Except.pure, Action.map, mapped.result]
  · split
    · cases two : inst.twoOperands <;> cases two' : inst'.twoOperands <;>
        simp_all [Except.map, bind, Except.bind, pure, Except.pure, Action.map, mapped.result]
    · rfl

end Instruction

/-- Actions and the same ones on the partners of their values are decided alike. -/
theorem Knowledge.Agrees.performAll {ρ : Value → Value → Prop} {k k' : Knowledge}
    {h : Value → Value} (agrees : Agrees ρ k k') (pairing : Pairing ρ)
    {before before' : List Action} (blank : k.Blank before) (blank' : k'.Blank before')
    {actions : List Action} (partners : ∀ action ∈ actions, ∀ v ∈ action.values, ρ v (h v)) :
    (k.performAll actions).1 = (k'.performAll (actions.map (·.map h))).1 ∧
      Agrees ρ (k.performAll actions).2 (k'.performAll (actions.map (·.map h))).2 := by
  induction actions generalizing k k' before before' with
  | nil => exact ⟨rfl, agrees⟩
  | cons action rest ih =>
      have first := partners action (List.mem_cons_self ..)
      have others := fun other member => partners other (List.mem_cons_of_mem action member)
      obtain ⟨decision, after⟩ := agrees.perform pairing blank blank'
        (Action.alike_map first before before')
      obtain ⟨decisions, whole⟩ := ih after (blank.perform action)
        (blank'.perform (action.map h)) others
      exact ⟨congrArg₂ List.cons decision decisions, whole⟩

namespace Function

def objects (fn : Function) : List Value :=
  fn.instructions.map (·.result) ++ fn.instructions.flatMap fun inst => inst.operands.map (·.value)

/-- Two functions with the same opcodes, the same values of literals, and the same objects shared at
the same places. -/
structure SamePattern (h : Value → Value) (fn fn' : Function) : Prop where
  bijective : Set.BijOn h {v | v ∈ fn.objects} {v | v ∈ fn'.objects}
  instructions : List.Forall₂ (Instruction.MappedTo h) fn.instructions fn'.instructions
  literals : ∀ v ∈ fn.objects, (h v).literal? = v.literal?

variable {h : Value → Value} {fn fn' : Function}

theorem SamePattern.pairing (pattern : SamePattern h fn fn') :
    Pairing fun v w => v ∈ fn.objects ∧ h v = w where
  left := by
    intro v v' w first second
    exact pattern.bijective.injOn first.1 second.1 (first.2.trans second.2.symm)
  right := by
    intro v w w' first second
    exact first.2.symm.trans second.2
  literal := by
    intro v w pair
    rw [← pair.2, pattern.literals v pair.1]

theorem SamePattern.actions (pattern : SamePattern h fn fn') :
    fn'.actions = fn.actions.map (·.map h) := by
  have mapped := pattern.instructions
  unfold Function.actions
  generalize fn.instructions = instructions, fn'.instructions = instructions' at mapped
  induction mapped with
  | nil => rfl
  | @cons inst inst' rest rest' here _ ih =>
      have action : inst'.action? = inst.action?.map (·.map h) := by
        unfold Instruction.action?
        rw [here.action]
        cases inst.action <;> rfl
      rw [List.filterMap_cons, List.filterMap_cons, action, ih]
      cases inst.action? <;> rfl

theorem mem_objects_of_action {action : Action} (member : action ∈ fn.actions) {v : Value}
    (isValue : v ∈ action.values) :
    v ∈ fn.objects := by
  obtain ⟨inst, isInst, found⟩ := List.mem_filterMap.mp member
  have ofResult : inst.result ∈ fn.objects := List.mem_append_left _ (List.mem_map_of_mem isInst)
  have ofOperand : ∀ operand ∈ inst.operands, operand.value ∈ fn.objects := by
    intro operand isOperand
    exact List.mem_append_right _
      (List.mem_flatMap.mpr ⟨inst, isInst, List.mem_map_of_mem isOperand⟩)
  cases Instruction.action_some (Instruction.action_of_action? found) with
  | store opcode first last =>
      rcases List.mem_pair.mp isValue with rfl | rfl
      · exact ofOperand _ (List.mem_of_head? first)
      · exact ofOperand _ (List.mem_of_getLast? last)
  | load opcode last =>
      rcases List.mem_pair.mp isValue with rfl | rfl
      · exact ofResult
      · exact ofOperand _ (List.mem_of_getLast? last)
  | @binary lhs rhs opcode both =>
      have left := ofOperand lhs (by simp [both])
      have right := ofOperand rhs (by simp [both])
      simp only [Action.values, List.mem_cons, List.not_mem_nil, or_false] at isValue
      rcases isValue with rfl | rfl | rfl
      · exact ofResult
      · exact left
      · exact right

end Function

namespace Numbering

structure Outcome.SameNumbers (o o' : Outcome) : Prop where
  decisions : o.numbering.records.map (·.toDecision) = o'.numbering.records.map (·.toDecision)
  table : o.numbering.knowledge.table = o'.numbering.knowledge.table
  next : o.numbering.knowledge.store.next = o'.numbering.knowledge.store.next

/-- Numbering depends on opcodes, on the values of literals and on the sharing of objects only. -/
theorem sharing_pattern_determines_numbers {h : Value → Value} {fn fn' : Function}
    (pattern : fn.SamePattern h fn') {settings settings' : Settings}
    (sharing : settings.shareLiterals = settings'.shareLiterals)
    (finished : (ofFunction settings fn).fault = none)
    (finished' : (ofFunction settings' fn').fault = none) :
    (ofFunction settings fn).SameNumbers (ofFunction settings' fn') := by
  have blank : (initial settings.shareLiterals).Blank [] := fun _ _ => rfl
  have partners : ∀ action ∈ fn.actions, ∀ v ∈ action.values, v ∈ fn.objects ∧ h v = h v :=
    fun _ member _ isValue => ⟨Function.mem_objects_of_action member isValue, rfl⟩
  obtain ⟨decisions, agrees⟩ :=
    (Knowledge.Agrees.initial _ settings.shareLiterals).performAll pattern.pairing blank blank
      partners
  rw [← pattern.actions] at decisions agrees
  have known : _ = ((initial settings.shareLiterals).performAll fn.actions).2 :=
    (ofFunction_added finished).knowledge_eq
  have known' : _ = ((initial settings'.shareLiterals).performAll fn'.actions).2 :=
    (ofFunction_added finished').knowledge_eq
  rw [← sharing] at known'
  rw [← known, ← known'] at agrees
  refine ⟨?_, agrees.table, agrees.next⟩
  rw [decisions_of_finished finished, decisions_of_finished finished', ← sharing]
  exact decisions

end Numbering

def incrementsInPlace : Function :=
  let pointer : Operand := ⟨"ptr", ⟨0, .argument "p" "ptr"⟩⟩
  let one : Operand := ⟨"i32", ⟨1, .literal 1 "i32"⟩⟩
  let load : Instruction :=
    { id := 2, opcode := .load, operands := [pointer], type := "i32", name := some "v" }
  let first : Instruction :=
    { id := 3, opcode := .add, operands := [load.operand, one], type := "i32", name := some "s" }
  let store : Instruction :=
    { id := 4, opcode := .store, operands := [first.operand, pointer], align := some 4 }
  let again : Instruction :=
    { id := 5, opcode := .load, operands := [pointer], type := "i32", name := some "w" }
  let second : Instruction :=
    { id := 6, opcode := .add, operands := [again.operand, one], type := "i32", name := some "t" }
  { name := "increments", blocks := [⟨"entry", [load, first, store, again, second]⟩] }

def incrementsInBlocks : Function :=
  let pointer : Operand := ⟨"ptr", ⟨10, .argument "q" "ptr"⟩⟩
  let one : Operand := ⟨"i64", ⟨11, .literal 1 "i64"⟩⟩
  let load : Instruction :=
    { id := 12, opcode := .load, operands := [pointer], text := some "load" }
  let first : Instruction :=
    { id := 13, opcode := .add, operands := [load.operand, one], flags := ["nsw"] }
  let store : Instruction := { id := 14, opcode := .store, operands := [first.operand, pointer] }
  let again : Instruction := { id := 15, opcode := .load, operands := [pointer] }
  let second : Instruction := { id := 16, opcode := .add, operands := [again.operand, one] }
  { name := "blocks", blocks := [⟨"entry", [load, first]⟩, ⟨"next", [store, again, second]⟩] }

def Value.elsewhere (v : Value) : Value :=
  match v.form with
  | .literal c _ => ⟨v.id + 10, .literal c "i64"⟩
  | .argument _ type => ⟨v.id + 10, .argument "q" type⟩
  | _ => ⟨v.id + 10, .result none⟩

theorem incrementsInPlace_pattern :
    incrementsInPlace.SamePattern Value.elsewhere incrementsInBlocks where
  bijective := by
    refine ⟨?_, ?_, ?_⟩
    · show ∀ v ∈ incrementsInPlace.objects, v.elsewhere ∈ incrementsInBlocks.objects
      decide
    · show ∀ v ∈ incrementsInPlace.objects, ∀ w ∈ incrementsInPlace.objects,
        v.elsewhere = w.elsewhere → v = w
      decide
    · show ∀ w ∈ incrementsInBlocks.objects, ∃ v ∈ incrementsInPlace.objects, v.elsewhere = w
      decide
  instructions := by
    refine .cons ⟨rfl, rfl, rfl⟩ (.cons ⟨rfl, rfl, rfl⟩
      (.cons ⟨rfl, rfl, rfl⟩ (.cons ⟨rfl, rfl, rfl⟩ ?_)))
    exact .cons ⟨rfl, rfl, rfl⟩ .nil
  literals := by decide

theorem incrementsInBlocks_numbered :
    (Numbering.ofFunction { column := 20 } incrementsInPlace).SameNumbers
        (Numbering.ofFunction { column := 60 } incrementsInBlocks) ∧
      (Numbering.ofFunction { column := 60 } incrementsInBlocks).numbering.records.map (·.number) =
        [1, 3, 3, 3, 4] :=
  ⟨Numbering.sharing_pattern_determines_numbers incrementsInPlace_pattern rfl (by decide)
    (by decide), by decide⟩

end ValueNumbering

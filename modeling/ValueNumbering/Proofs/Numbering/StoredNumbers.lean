import ValueNumbering.Proofs.Numbering.Renaming
import ValueNumbering.Proofs.Numbering.Repetition

/-!
What a load sees of the stores before it. A store leaves the number of its value under its pointer,
nothing but another store through the same pointer replaces it, and a load takes the number that it
finds there.
-/

namespace ValueNumbering

namespace Knowledge

theorem pointerNumber_storeThrough (k : Knowledge) (value pointer : Value) :
    (k.storeThrough value pointer).2.store.pointerNumber pointer =
      some (k.storeThrough value pointer).1.number :=
  Dictionary.find?_insert_self _ _ _

theorem pointerNumber_performAll (k : Knowledge) {pointer : Value} {actions : List Action}
    (untouched : Untouched pointer actions) :
    (k.performAll actions).2.store.pointerNumber pointer = k.store.pointerNumber pointer := by
  induction actions generalizing k with
  | nil => rfl
  | cons action rest ih =>
      have later : Untouched pointer rest :=
        fun value member => untouched value (List.mem_cons_of_mem _ member)
      have here : ∀ value, action ≠ .store value pointer := by
        rintro value rfl
        exact untouched value (List.mem_cons_self ..)
      exact (ih _ later).trans (pointerNumber_perform here)

/-- A load gives its result the number of the latest store through the pointer. -/
theorem number_loadFrom_stored (k : Knowledge) (value pointer result : Value)
    {between : List Action} (untouched : Untouched pointer between) :
    (((k.storeThrough value pointer).2.performAll between).2.loadFrom result pointer).1.number =
      (k.storeThrough value pointer).1.number := by
  have written := ((k.storeThrough value pointer).2.pointerNumber_performAll untouched).trans
    (k.pointerNumber_storeThrough value pointer)
  rw [loadFrom_written written]

end Knowledge

namespace Instruction

variable {inst : Instruction}

theorem isNumbered_of_action? {action : Action} (found : inst.action? = some action) :
    inst.isNumbered = true :=
  (action_some (action_of_action? found)).isNumbered

theorem Complete.exists_action? (complete : inst.Complete) (numbered : inst.isNumbered = true) :
    ∃ action, inst.action? = some action ∧ inst.Performs action := by
  obtain ⟨decided, found⟩ := exists_action complete.fit
  cases decided with
  | none =>
      rw [action_none found] at numbered
      cases numbered
  | some action => exact ⟨action, by simp [action?, found], action_some found⟩

theorem pointerOperand_eq_ok {x : Operand} :
    inst.pointerOperand = .ok x ↔ inst.operands.getLast? = some x := by
  unfold pointerOperand
  cases inst.operands.getLast? <;> simp

theorem Complete.action?_of_store (complete : inst.Complete) (isStore : inst.opcode = .store)
    {x : Operand} (pointer : inst.pointerOperand = .ok x) :
    ∃ value, inst.action? = some (.store value x.value) := by
  obtain ⟨action, found, performs⟩ := complete.exists_action? (by simp [isNumbered, isStore])
  cases performs with
  | @store value last opcode first isLast =>
      obtain rfl := Option.some.inj (isLast.symm.trans (pointerOperand_eq_ok.mp pointer))
      exact ⟨value.value, found⟩
  | load opcode isLast => cases isStore.symm.trans opcode
  | binary isOperation both => cases (isBinary_of_store isStore).symm.trans isOperation

theorem Complete.action?_of_load (complete : inst.Complete) (isLoad : inst.opcode = .load)
    {x : Operand} (pointer : inst.pointerOperand = .ok x) :
    inst.action? = some (.load inst.result x.value) := by
  obtain ⟨action, found, performs⟩ := complete.exists_action? (by simp [isNumbered, isLoad])
  cases performs with
  | store opcode first isLast => cases isLoad.symm.trans opcode
  | @load last opcode isLast =>
      obtain rfl := Option.some.inj (isLast.symm.trans (pointerOperand_eq_ok.mp pointer))
      exact found
  | binary isOperation both => cases (isBinary_of_load isLoad).symm.trans isOperation

theorem store_of_action? {value pointer : Value}
    (found : inst.action? = some (.store value pointer)) :
    inst.opcode = .store ∧ ∃ x, inst.pointerOperand = .ok x ∧ x.value = pointer := by
  cases action_some (action_of_action? found) with
  | store opcode first last => exact ⟨opcode, _, pointerOperand_eq_ok.mpr last, rfl⟩

end Instruction

/-- In a function, a store and a later load through one pointer, with the instructions between the
two. None of these stores through the pointer. -/
structure LoadsBack (fn : Function) (pointer : Value) (store : Instruction)
    (between : List Instruction) (load : Instruction) :
    Prop where
  inOrder : ∃ before after, fn.instructions = before ++ store :: (between ++ load :: after)
  stores : ∃ value, store.action? = some (.store value pointer)
  loads : load.action? = some (.load load.result pointer)
  untouched : Untouched pointer (between.filterMap (·.action?))

/-- The store and the load have one record each, both with one number, and the result of the load
keeps it. -/
def SharesNumber (settings : Numbering.Settings) (fn : Function) (store load : Instruction) :
    Prop :=
  ∃ r s, (Numbering.ofFunction settings fn).numbering.records.filter (·.instruction = store) = [r] ∧
    (Numbering.ofFunction settings fn).numbering.records.filter (·.instruction = load) = [s] ∧
    s.number = r.number ∧ (Numbering.ofFunction settings fn).numbering.number? load.result =
      some r.number

theorem LoadsBack.sharesNumber {fn : Function} {pointer : Value} {store load : Instruction}
    {between : List Instruction} (loadsBack : LoadsBack fn pointer store between load)
    {settings : Numbering.Settings} (finished : (Numbering.ofFunction settings fn).fault = none)
    (distinct : (fn.instructions.map (·.id)).Nodup) :
    SharesNumber settings fn store load := by
  obtain ⟨before, after, inOrder⟩ := loadsBack.inOrder
  obtain ⟨value, stores⟩ := loadsBack.stores
  have isStore : store ∈ fn.instructions := by simp [inOrder]
  have isLoad : load ∈ fn.instructions := by simp [inOrder]
  have computes : load.computes = true := by
    have result :=
      (Instruction.action_some (Instruction.action_of_action? loadsBack.loads)).result?_eq
    by_contra notComputes
    simp [notComputes, Action.result?] at result
  obtain ⟨r, onlyStore⟩ := Numbering.exists_one_record finished distinct isStore
    (Instruction.isNumbered_of_action? stores)
  obtain ⟨s, onlyLoad, loadNumber⟩ := Numbering.number_of_result finished distinct isLoad computes
  have isRecord := Numbering.decision_of_record finished inOrder stores onlyStore
  have inOrder' : fn.instructions = (before ++ store :: between) ++ load :: after := by
    simp [inOrder]
  have isRecord' := Numbering.decision_of_record finished inOrder' loadsBack.loads onlyLoad
  -- What is known before the load is what the store left, after the instructions between.
  rw [List.filterMap_append, List.filterMap_cons_some stores, Knowledge.performAll_append,
    Knowledge.performAll] at isRecord'
  have sameNumber : s.number = r.number := by
    calc
      s.number = s.toDecision.number := rfl
      _ = r.toDecision.number := by
          rw [isRecord', isRecord]
          exact Knowledge.number_loadFrom_stored _ value pointer load.result loadsBack.untouched
      _ = r.number := rfl
  exact ⟨r, s, onlyStore, onlyLoad, sameNumber, sameNumber ▸ loadNumber⟩

end ValueNumbering

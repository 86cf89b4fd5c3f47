import ValueNumbering.Proofs.Assembly.AccessLines
import ValueNumbering.Proofs.Assembly.SingleAssignment
import ValueNumbering.Proofs.Numbering.StoredNumbers

/-!
Loads and stores of an accepted text. One without an ordering goes through the object that its
pointer names, so a load gets the number of the latest store through it. With an ordering it goes
through a constant, which no name is bound to.
-/

namespace ValueNumbering.Assembly

open Text

/-- The object that a name is bound to in a function, or in its module. -/
inductive BoundTo (m : Module) (fn : Function) (pointer : MarkedName) : Value → Prop
  | argument {arg : Argument} (isMark : pointer.mark = '%')
      (one : fn.arguments.filter (·.name = String.ofList pointer.name) = [arg])
      (none : fn.instructions.filter (·.name = some (String.ofList pointer.name)) = []) :
      BoundTo m fn pointer arg.value
  | result {inst : Instruction} (isMark : pointer.mark = '%')
      (one : fn.instructions.filter (·.name = some (String.ofList pointer.name)) = [inst])
      (none : fn.arguments.filter (·.name = String.ofList pointer.name) = []) :
      BoundTo m fn pointer inst.result
  | global {found : Global} (isMark : pointer.mark = '@')
      (stored : m.globals.find? (String.ofList pointer.name) = some found)
      (named : found.name = String.ofList pointer.name) : BoundTo m fn pointer found.value

section Binding

variable {m : Module} {fn : Function} {pointer pointer' : MarkedName} {v w : Value}

theorem BoundTo.value_unique (first : BoundTo m fn pointer v) (second : BoundTo m fn pointer w) :
    v = w := by
  have apart : '%' ≠ '@' := by decide
  cases first with
  | argument isMark one none =>
      cases second with
      | argument isMark' one' none' => rw [(List.cons.inj (one.symm.trans one')).1]
      | result isMark' one' none' => cases none'.symm.trans one
      | global isMark' stored named => exact absurd (isMark.symm.trans isMark') apart
  | result isMark one none =>
      cases second with
      | argument isMark' one' none' => cases none.symm.trans one'
      | result isMark' one' none' => rw [(List.cons.inj (one.symm.trans one')).1]
      | global isMark' stored named => exact absurd (isMark.symm.trans isMark') apart
  | global isMark stored named =>
      cases second with
      | argument isMark' one none => exact absurd (isMark'.symm.trans isMark) apart
      | result isMark' one none => exact absurd (isMark'.symm.trans isMark) apart
      | global isMark' stored' named' => rw [Option.some.inj (stored.symm.trans stored')]

theorem BoundTo.spelling (bound : BoundTo m fn pointer v) :
    v.form.spelling.toList = pointer.text := by
  cases bound with
  | @argument arg isMark one none =>
      obtain ⟨-, same⟩ := List.mem_filter.mp (one ▸ List.mem_singleton_self arg)
      have named : arg.name = String.ofList pointer.name := of_decide_eq_true same
      simp [Argument.value, Form.spelling, named, MarkedName.text, isMark]
  | @result inst isMark one none =>
      obtain ⟨-, same⟩ := List.mem_filter.mp (one ▸ List.mem_singleton_self inst)
      have named : inst.name = some (String.ofList pointer.name) := of_decide_eq_true same
      simp [Instruction.result, Form.spelling, resultName, named, MarkedName.text, isMark]
  | global isMark stored named => simp [Global.value, Form.spelling, named, MarkedName.text, isMark]

theorem BoundTo.name_unique (first : BoundTo m fn pointer v) (second : BoundTo m fn pointer' v) :
    pointer = pointer' :=
  MarkedName.ext_text (first.spelling.symm.trans second.spelling)

theorem BoundTo.form (bound : BoundTo m fn pointer v) :
    (∀ value type, v.form ≠ .literal value type) ∧ ∀ text type, v.form ≠ .constant text type := by
  cases bound <;> simp [Argument.value, Instruction.result, Global.value]

end Binding

section Denoting

variable {m : Module} {fn : Function} {type : String} {v : Value}

theorem Denotes.boundTo {pointer : MarkedName} (denotes : Denotes m fn type pointer.text v) :
    BoundTo m fn pointer v := by
  have marked : pointer.text.head? = some '%' ∨ pointer.text.head? = some '@' := by
    simpa [MarkedName.text] using pointer.isMark
  have noInteger : isIntegerText pointer.text = false := by
    have marks : isDecimal '%' = false ∧ isDecimal '@' = false := by decide
    obtain ⟨mark, name, isMark, isName⟩ := pointer
    rcases isMark with rfl | rfl <;> simp [MarkedName.text, isIntegerText, marks]
  generalize same : pointer.text = text at denotes marked noInteger
  cases denotes with
  | argument one none =>
      obtain ⟨isMark, rfl⟩ := List.cons.inj same
      exact .argument isMark one none
  | result one none =>
      obtain ⟨isMark, rfl⟩ := List.cons.inj same
      exact .result isMark one none
  | global stored named =>
      obtain ⟨isMark, rfl⟩ := List.cons.inj same
      exact .global isMark stored named
  | integer digits read form own => cases noInteger.symm.trans digits
  | isTrue form own => exact absurd marked (by decide)
  | isFalse form own => exact absurd marked (by decide)
  | expression expression form own =>
    exact (marked.elim expression.notNamed expression.notGlobal).elim
  | constant notNamed notGlobal notInteger notExpression form own =>
    exact (marked.elim notNamed notGlobal).elim

theorem Denotes.not_boundTo {text : List Char} (denotes : Denotes m fn type text v)
    (unmarked : text.head? ≠ some '%' ∧ text.head? ≠ some '@') (pointer : MarkedName) :
    ¬ BoundTo m fn pointer v := by
  intro bound
  obtain ⟨notLiteral, notConstant⟩ := bound.form
  cases denotes with
  | argument one none => exact unmarked.1 rfl
  | result one none => exact unmarked.1 rfl
  | global stored named => exact unmarked.2 rfl
  | integer digits read form own => exact notLiteral _ _ form
  | isTrue form own => exact notLiteral _ _ form
  | isFalse form own => exact notLiteral _ _ form
  | expression expression form own => exact notConstant _ _ form
  | constant notNamed notGlobal notInteger notExpression form own => exact notConstant _ _ form

end Denoting

/-- The pointer of an instruction is what the last operand text of its line stands for. -/
theorem pointerOperand_of_read {text name : String} {m : Module} (accepted : read text name = .ok m)
    {fn : Function} (member : fn ∈ m.functions) {inst : Instruction}
    (isInstruction : inst ∈ fn.instructions) {written : List Char}
    (last : (lineOperands (lineOf inst)).getLast? = some written) :
    ∃ x, inst.pointerOperand = .ok x ∧ Denotes m fn x.type written x.value := by
  obtain ⟨objects, made⟩ := made_of_read accepted
  have lines := lines_of_read accepted
  obtain ⟨i, isFunction⟩ := List.mem_iff_getElem?.mp member
  obtain ⟨j, isAt⟩ := List.mem_iff_getElem?.mp isInstruction
  have length := (made.written isFunction isAt).length
  let place : Place := ⟨i, j, inst.operands.length - 1⟩
  have isText : place.text? text = some written := by
    rw [Place.text?_eq lines]
    simp only [place, isFunction, isAt, Option.bind_some, ← length,
      ← List.getLast?_eq_getElem?, last]
  have present : (place.operand? m).isSome = true := by
    rw [made.operands lines place, isText, Option.isSome_some]
  obtain ⟨x, isOperand⟩ := Option.isSome_iff_exists.mp present
  refine ⟨x, ?_, made.denotes lines isFunction isOperand isText⟩
  have isLast : inst.operands.getLast? = some x := by
    rw [List.getLast?_eq_getElem?]
    simpa [place, Place.operand?, isFunction, isAt] using isOperand
  exact Instruction.pointerOperand_eq_ok.mpr isLast

/-- The instruction is a store, and its pointer is the object that the name is bound to. -/
def StoresThrough (m : Module) (fn : Function) (pointer : MarkedName) (inst : Instruction) : Prop :=
  inst.opcode = .store ∧ ∃ x, inst.pointerOperand = .ok x ∧ BoundTo m fn pointer x.value

/-- What the loads and stores of a function go through, and what its loads find. -/
structure AccessesAttributed (m : Module) (fn : Function) : Prop where
  /-- The pointer of an access is the object that its name is bound to, and that of no other name,
  unless it has an ordering. -/
  pointers : ∀ inst ∈ fn.instructions, ∀ access : Access (lineOf inst),
    inst.opcode = access.opcode ∧
    ∃ x, inst.pointerOperand = .ok x ∧ ∀ pointer, BoundTo m fn pointer x.value ↔
      pointer = access.pointer ∧ access.ordering = none
  /-- A load without an ordering has the number of the latest store without one through the same
  name. -/
  loads : ∀ {before between after : List Instruction} {store load : Instruction},
    fn.instructions = before ++ store :: (between ++ load :: after) →
    ∀ (stored : Access (lineOf store)) (loaded : Access (lineOf load)), stored.opcode = .store →
      loaded.opcode = .load →
      stored.ordering = none → loaded.ordering = none → stored.pointer = loaded.pointer →
      (∀ inst ∈ between, ¬ StoresThrough m fn loaded.pointer inst) →
      ∀ settings : Numbering.Settings, Line.columnInRange settings.column = true →
        (Numbering.ofFunction settings fn).fault = none ∧ SharesNumber settings fn store load

section Attribution

variable {text name : String} {m : Module} {fn : Function} {inst : Instruction}

theorem Access.opcode_eq (accepted : read text name = .ok m) (member : fn ∈ m.functions)
    (isInstruction : inst ∈ fn.instructions) (access : Access (lineOf inst)) :
    inst.opcode = access.opcode := by
  obtain ⟨objects, made⟩ := made_of_read accepted
  obtain ⟨i, j, written⟩ := made.written_of_mem member isInstruction
  obtain ⟨result, mnemonic, rest, isLine, opcode, -⟩ := written.form
  cases access.isLine.symm.trans isLine
  rw [opcode, String.ofList_toList, Opcode.ofMnemonic_mnemonic]

theorem Access.pointer_iff (accepted : read text name = .ok m) (member : fn ∈ m.functions)
    (isInstruction : inst ∈ fn.instructions) (access : Access (lineOf inst)) :
    ∃ x, inst.pointerOperand = .ok x ∧
      ∀ pointer, BoundTo m fn pointer x.value ↔ pointer = access.pointer ∧
        access.ordering = none := by
  obtain ⟨x, isPointer, denotes⟩ :=
    pointerOperand_of_read accepted member isInstruction access.getLast?_lineOperands
  refine ⟨x, isPointer, fun pointer => ?_⟩
  cases isOrdering : access.ordering with
  | none =>
      rw [Access.pointerText, isOrdering] at denotes
      have isName : Denotes m fn x.type access.pointer.text x.value := denotes
      have bound := isName.boundTo
      constructor
      · intro other
        exact ⟨other.name_unique bound, rfl⟩
      · rintro ⟨rfl, -⟩
        exact bound
  | some ordering =>
      rw [Access.pointerText, isOrdering] at denotes
      have isWord : Denotes m fn x.type ordering.spelling x.value := denotes
      constructor
      · intro bound
        exact absurd bound (isWord.not_boundTo ordering.unmarked pointer)
      · rintro ⟨-, none⟩
        cases none

/-- A load finds what a store left through the same name, where no store between the two goes
through it. -/
theorem Access.exists_loadsBack (accepted : read text name = .ok m) (member : fn ∈ m.functions)
    {before between after : List Instruction} {store load : Instruction}
    (inOrder : fn.instructions = before ++ store :: (between ++ load :: after))
    {stored : Access (lineOf store)} {loaded : Access (lineOf load)}
    (isStore : stored.opcode = .store) (isLoad : loaded.opcode = .load)
    (storedPlain : stored.ordering = none) (loadedPlain : loaded.ordering = none)
    (samePointer : stored.pointer = loaded.pointer)
    (apart : ∀ inst ∈ between, ¬ StoresThrough m fn loaded.pointer inst) :
    ∃ v, LoadsBack fn v store between load := by
  obtain ⟨objects, made⟩ := made_of_read accepted
  have storeIn : store ∈ fn.instructions := by simp [inOrder]
  have loadIn : load ∈ fn.instructions := by simp [inOrder]
  obtain ⟨x, storePointer, storeBound⟩ := stored.pointer_iff accepted member storeIn
  obtain ⟨y, loadPointer, loadBound⟩ := loaded.pointer_iff accepted member loadIn
  have bound : BoundTo m fn loaded.pointer x.value :=
    (storeBound _).mpr ⟨samePointer.symm, storedPlain⟩
  have bound' : BoundTo m fn loaded.pointer y.value := (loadBound _).mpr ⟨rfl, loadedPlain⟩
  have sameObject : y.value = x.value := bound'.value_unique bound
  have stores := (made.complete member storeIn).action?_of_store
    ((stored.opcode_eq accepted member storeIn).trans isStore)
    storePointer
  have loads := (made.complete member loadIn).action?_of_load
    ((loaded.opcode_eq accepted member loadIn).trans isLoad) loadPointer
  have untouched : Untouched x.value (between.filterMap (·.action?)) := by
    intro value isAction
    obtain ⟨inst, isBetween, found⟩ := List.mem_filterMap.mp isAction
    obtain ⟨opcode, z, pointer, sameValue⟩ := Instruction.store_of_action? found
    exact apart inst isBetween ⟨opcode, z, pointer, sameValue ▸ bound⟩
  exact ⟨x.value, ⟨before, after, inOrder⟩, stores, sameObject ▸ loads, untouched⟩

end Attribution

/-- In an accepted text every load and store without an ordering is attributed to what its pointer
names, and so loads find the number that was stored last. -/
theorem accesses_attributed {text name : String} {m : Module} (accepted : read text name = .ok m) :
    ∀ fn ∈ m.functions, AccessesAttributed m fn := by
  intro fn member
  constructor
  · intro inst isInstruction access
    exact ⟨access.opcode_eq accepted member isInstruction,
      access.pointer_iff accepted member isInstruction⟩
  · intro before between after store load inOrder stored loaded isStore isLoad storedPlain
      loadedPlain samePointer apart settings inRange
    obtain ⟨v, loadsBack⟩ :=
      Access.exists_loadsBack accepted member inOrder isStore isLoad storedPlain loadedPlain
        samePointer apart
    obtain ⟨objects, made⟩ := made_of_read accepted
    have single := made.singleAssignment (lines_of_read accepted) member
    have finished : (Numbering.ofFunction settings fn).fault = none :=
      Numbering.fault_of_complete inRange fun inst isInstruction =>
        made.complete member isInstruction
    exact ⟨finished, loadsBack.sharesNumber finished single.instructions⟩

def storesAndLoad : String :=
  "define i32 @f(ptr %p) \x7b\n" ++
  "store volatile i32 7, ptr %p, align 4\n" ++
  "store [2 x i8] undef, ptr @g\n" ++
  "%r = load i32, ptr %p, !tbaa !0\n" ++
  "\x7d\n" ++
  "@g = global i16 0\n"

def parameterP : MarkedName := ⟨'%', ['p'], Or.inl rfl, by decide⟩

def globalG : MarkedName := ⟨'@', ['g'], Or.inr rfl, by decide⟩

theorem storesAndLoad_attributed :
    ∃ m fn store other load, read storesAndLoad = .ok m ∧ m.functions = [fn] ∧
    fn.instructions = [store, other, load] ∧
    ∃ (stored : Access (lineOf store)) (loaded : Access (lineOf load)), stored.opcode = .store ∧
      loaded.opcode = .load ∧
      stored.ordering = none ∧ loaded.ordering = none ∧ stored.pointer = loaded.pointer ∧
      ¬ StoresThrough m fn loaded.pointer other ∧ SharesNumber {} fn store load := by
  have outline : ((read storesAndLoad).toOption.map fun m => m.functions.map fun fn =>
      fn.instructions.map lineOf) =
      some [["store volatile i32 7, ptr %p, align 4".toList, "store [2 x i8] undef, ptr @g".toList,
        "%r = load i32, ptr %p, !tbaa !0".toList]] := by
    decide +kernel
  obtain ⟨m, fn, accepted, only, listed⟩ := exists_function_of_view outline
  have isFunction : fn ∈ m.functions := only ▸ List.mem_singleton_self fn
  have three : fn.instructions.length = 3 := by simpa using congrArg List.length listed
  obtain ⟨store, other, load, inOrder⟩ := List.length_eq_three.mp three
  simp only [inOrder, List.map_cons, List.map_nil, List.cons.injEq, and_true] at listed
  obtain ⟨storeLine, otherLine, loadLine⟩ := listed
  have seven : Sealed ['7'] := by decide
  have undefined : Sealed "undef".toList := by decide
  have isName : IsName ['r'] := by decide
  let first : WrittenAccess := ⟨true, .integer 32, parameterP, none, some 4, none⟩
  let second : WrittenAccess := ⟨false, .array 2 (.integer 8), globalG, none, none, none⟩
  let third : WrittenAccess := ⟨false, .integer 32, parameterP, none, none, some "tbaa !0".toList⟩
  obtain ⟨stored, isStore, storedPointer, storedPlain⟩ :=
    first.exists_store seven (by decide) storeLine
  obtain ⟨between, -, betweenPointer, -⟩ := second.exists_store undefined (by decide) otherLine
  obtain ⟨loaded, isLoad, loadedPointer, loadedPlain⟩ := third.exists_load isName loadLine
  have samePointer : stored.pointer = loaded.pointer := storedPointer.trans loadedPointer.symm
  have attributed := accesses_attributed accepted fn isFunction
  have apart : ¬ StoresThrough m fn loaded.pointer other := by
    rintro ⟨-, x, isPointer, bound⟩
    obtain ⟨-, y, isPointer', iff⟩ := attributed.pointers other (by simp [inOrder]) between
    cases isPointer.symm.trans isPointer'
    have same := ((iff _).mp bound).1
    rw [loadedPointer, betweenPointer] at same
    exact absurd (congrArg MarkedName.mark same) (by decide)
  have inRange : Line.columnInRange ({} : Numbering.Settings).column = true := by decide
  have listed : fn.instructions = [] ++ store :: ([other] ++ load :: []) := inOrder
  have numbered :=
    attributed.loads listed stored loaded isStore isLoad storedPlain loadedPlain samePointer
    (List.forall_mem_singleton.mpr apart) {} inRange
  exact ⟨m, fn, store, other, load, accepted, only, inOrder, stored, loaded, isStore, isLoad,
    storedPlain, loadedPlain, samePointer, apart, numbered.2⟩

/-- A store with an ordering and a load through the same parameter. -/
def releaseAndLoad : String :=
  "define i32 @f(ptr %p) \x7b\n" ++
  "  store atomic i32 7, ptr %p release, align 4\n" ++
  "  %r = load i32, ptr %p, align 4\n" ++
  "\x7d\n"

/-- The store is not attributed to the parameter that it names, and the load gets another number
than it stored. -/
theorem releaseAndLoad_not_attributed :
    ∃ m fn store load, read releaseAndLoad = .ok m ∧ m.functions = [fn] ∧
    fn.instructions = [store, load] ∧
    ∃ (stored : Access (lineOf store)) (loaded : Access (lineOf load)), stored.opcode = .store ∧
      loaded.opcode = .load ∧
      stored.pointer = loaded.pointer ∧ (∃ v, BoundTo m fn stored.pointer v) ∧
      (∃ x, store.pointerOperand = .ok x ∧ ¬ BoundTo m fn stored.pointer x.value) ∧
        ¬ SharesNumber {} fn store load := by
  have outline : ((read releaseAndLoad).toOption.map fun m => m.functions.map fun fn =>
      (fn.instructions.map lineOf,
      (Numbering.ofFunction {} fn).numbering.records.map fun r =>
        (r.instruction.opcode, r.number))) =
      some [(["store atomic i32 7, ptr %p release, align 4".toList,
          "%r = load i32, ptr %p, align 4".toList],
        [(.store, 1), (.load, 2)])] := by
    decide +kernel
  obtain ⟨m, fn, accepted, only, facts⟩ := exists_function_of_view outline
  obtain ⟨listed, numbers⟩ := Prod.mk.inj facts
  have isFunction : fn ∈ m.functions := only ▸ List.mem_singleton_self fn
  have two : fn.instructions.length = 2 := by simpa using congrArg List.length listed
  obtain ⟨store, load, inOrder⟩ := List.length_eq_two.mp two
  simp only [inOrder, List.map_cons, List.map_nil, List.cons.injEq, and_true] at listed
  obtain ⟨storeLine, loadLine⟩ := listed
  have seven : Sealed ['7'] := by decide
  have isName : IsName ['r'] := by decide
  let first : WrittenAccess := ⟨false, .integer 32, parameterP, some .release, some 4, none⟩
  let second : WrittenAccess := ⟨false, .integer 32, parameterP, none, some 4, none⟩
  obtain ⟨stored, isStore, storedPointer, released⟩ :=
    first.exists_store seven (by decide) storeLine
  obtain ⟨loaded, isLoad, loadedPointer, loadedPlain⟩ := second.exists_load isName loadLine
  have samePointer : stored.pointer = loaded.pointer := storedPointer.trans loadedPointer.symm
  obtain ⟨x, isPointer, missed⟩ := stored.pointer_iff accepted isFunction (by simp [inOrder])
  obtain ⟨y, -, found⟩ := loaded.pointer_iff accepted isFunction (by simp [inOrder])
  refine ⟨m, fn, store, load, accepted, only, inOrder, stored, loaded, isStore, isLoad, samePointer,
    ?_, ⟨x, isPointer, ?_⟩, ?_⟩
  · exact ⟨y.value, (found _).mpr ⟨samePointer, loadedPlain⟩⟩
  · intro bound
    cases released.symm.trans ((missed _).mp bound).2
  · rintro ⟨r, s, isFirst, isSecond, sameNumber, -⟩
    have numberOf : ∀ {inst : Instruction} {r : Record},
        (Numbering.ofFunction {} fn).numbering.records.filter (·.instruction = inst) = [r] →
        (inst.opcode, r.number) ∈ [(Opcode.store, (1 : Int)), (Opcode.load, 2)] := by
      intro inst r single
      obtain ⟨isRecord, same⟩ := List.mem_filter.mp (single ▸ List.mem_singleton_self r)
      rw [← numbers, ← of_decide_eq_true same]
      exact List.mem_map_of_mem isRecord
    have first : r.number = 1 := by
      have isNumber := numberOf isFirst
      simpa [(stored.opcode_eq accepted isFunction (by simp [inOrder])).trans isStore]
        using isNumber
    have second : s.number = 2 := by
      have isNumber := numberOf isSecond
      simpa [(loaded.opcode_eq accepted isFunction (by simp [inOrder])).trans isLoad] using isNumber
    omega

end ValueNumbering.Assembly

import ValueNumbering.Proofs.Numbering.TypedTerms
import ValueNumbering.Proofs.Assembly.EveryInstruction
import ValueNumbering.Proofs.Assembly.SingleAssignment

/-!
Types of the operations that an accepted text repeats. A number has no type of its own, so an
operation and the earlier one under its key have one type where equal literals are written at one
type and loads yield the type that was stored; otherwise they need not.
-/

namespace ValueNumbering.Assembly

theorem binary_of_statement {line : Nat} {opcode : Opcode} {rest : List Char}
    {statement : Statement} (binary : opcode.isBinary = true)
    (stated : Statement.read line opcode rest = .ok statement) :
    ∃ flags type lhs rhs, statement = .binary flags type lhs rhs := by
  have isBinary : readBinary line opcode (dropMetadata rest) = .ok statement := by
    cases opcode <;> first | exact stated | cases binary
  unfold readBinary at isBinary
  split at isBinary
  · simp only at isBinary
    split at isBinary
    · obtain ⟨lhs, -, more⟩ := bind_eq_ok.mp isBinary
      obtain ⟨rhs, -, made⟩ := bind_eq_ok.mp more
      exact ⟨_, _, lhs, rhs, (Except.ok.inj made).symm⟩
    · cases isBinary
  · cases isBinary

theorem operandTypes_of_read {text name : String} {m : Module} (accepted : read text name = .ok m) :
    ∀ fn ∈ m.functions, ∀ inst ∈ fn.instructions, inst.isBinary = true → ∀ operand ∈ inst.operands,
      operand.type = inst.type := by
  refine every_instruction_of_read (fun inst => inst.isBinary = true → ∀ operand ∈ inst.operands,
    operand.type = inst.type) ?_ accepted
  intro names line value opcode result text rest statement stated isBinary operand isOperand
  have binary : opcode.isBinary = true := by
    simpa [Instruction.isBinary, Reader.unfilled] using isBinary
  obtain ⟨flags, type, lhs, rhs, rfl⟩ := binary_of_statement binary stated
  simp only [Reader.fill, Names.bindTyped] at isOperand ⊢
  rcases List.mem_pair.mp isOperand with rfl | rfl <;> rfl

/-- Every value is used at one type, and results of loads and operations are used at the type of
their instruction. -/
structure UsedAtOneType (fn : Function) (typeOf : Value → String) : Prop where
  uses : ∀ inst ∈ fn.instructions, ∀ operand ∈ inst.operands, operand.type = typeOf operand.value
  definitions : ∀ inst ∈ fn.instructions, inst.opcode = .load ∨ inst.isBinary = true →
    inst.type = typeOf inst.result

instance (fn : Function) (typeOf : Value → String) : Decidable (UsedAtOneType fn typeOf) :=
  decidable_of_iff
    ((∀ inst ∈ fn.instructions, ∀ operand ∈ inst.operands, operand.type = typeOf operand.value) ∧
      ∀ inst ∈ fn.instructions, inst.opcode = .load ∨ inst.isBinary = true →
        inst.type = typeOf inst.result)
    ⟨fun both => ⟨both.1, both.2⟩, fun used => ⟨used.uses, used.definitions⟩⟩

theorem UsedAtOneType.operationsTyped {fn : Function} {typeOf : Value → String}
    (used : UsedAtOneType fn typeOf)
    (own : ∀ inst ∈ fn.instructions, inst.isBinary = true →
      ∀ operand ∈ inst.operands, operand.type = inst.type) :
    OperationsTyped fn.actions typeOf := by
  intro opcode result lhs rhs member
  obtain ⟨inst, isInstruction, found⟩ := List.mem_filterMap.mp member
  have performs := Instruction.action_some (Instruction.action_of_action? found)
  cases performs with
  | @binary lhs rhs binary both =>
      have sameType : ∀ operand ∈ inst.operands, typeOf operand.value = typeOf inst.result := by
        intro operand isOperand
        calc
          typeOf operand.value = operand.type :=
          (used.uses inst isInstruction operand isOperand).symm
          _ = inst.type := own inst isInstruction binary operand isOperand
          _ = typeOf inst.result := used.definitions inst isInstruction (Or.inr binary)
      exact ⟨sameType lhs (by simp [both]), sameType rhs (by simp [both])⟩

/-- An operation that is reported has the type of the earlier one that was new under its key. -/
theorem redundant_operations_typed {text name : String} {m : Module}
    (accepted : read text name = .ok m) {fn : Function} (member : fn ∈ m.functions)
    {typeOf : Value → String} (used : UsedAtOneType fn typeOf)
    (loads : LoadsAgree fn.actions typeOf) (settings : Numbering.Settings)
    (literals : settings.shareLiterals = true → LiteralsAgree fn.actions typeOf)
    (inRange : Line.columnInRange settings.column = true) :
    (Numbering.ofFunction settings fn).fault = none ∧
      ∀ earlier r later, (Numbering.ofFunction settings fn).numbering.records =
        earlier ++ r :: later →
        r.redundant = true → ∃ key e, r.key? = some key ∧
          earlier.filter (Record.introduces key) = [e] ∧
          e.number = r.number ∧ e.instruction.type = r.instruction.type := by
  obtain ⟨objects, made⟩ := made_of_read accepted
  have finished : (Numbering.ofFunction settings fn).fault = none :=
    Numbering.fault_of_complete inRange fun inst isInstruction => made.complete member isInstruction
  refine ⟨finished, ?_⟩
  intro earlier r later inOrder redundant
  obtain ⟨isBinary', key, e, isKey', only, number⟩ :=
    Numbering.backed_of_finished finished earlier r later inOrder redundant
  refine ⟨key, e, isKey', only, number, ?_⟩
  have isRecord' : r ∈ (Numbering.ofFunction settings fn).numbering.records := by simp [inOrder]
  obtain ⟨isEarlier, introduces⟩ := List.mem_filter.mp (only ▸ List.mem_singleton_self e)
  have isRecord : e ∈ (Numbering.ofFunction settings fn).numbering.records := by
    simp [inOrder, isEarlier]
  obtain ⟨⟨isBinary, -⟩, isKey⟩ : (e.instruction.isBinary = true ∧ e.redundant = false) ∧
    e.key? = some key := by
    simpa [Record.introduces] using introduces
  have sameType := Numbering.type_eq_of_key finished
    (used.operationsTyped (operandTypes_of_read accepted fn member))
      loads literals isRecord isRecord' isBinary
    isBinary' isKey isKey'
  have ofFunction : ∀ s ∈ (Numbering.ofFunction settings fn).numbering.records,
      s.instruction ∈ fn.instructions := by
    intro s isRecord
    have recorded := List.mem_map_of_mem (f := (·.instruction)) isRecord
    rw [(Numbering.oneRecordEach_of_finished finished).instructions_eq] at recorded
    exact List.mem_of_mem_filter recorded
  calc
    e.instruction.type = typeOf e.instruction.result :=
    used.definitions _ (ofFunction e isRecord) (Or.inr isBinary)
    _ = typeOf r.instruction.result := sameType
    _ = r.instruction.type := (used.definitions _ (ofFunction r isRecord') (Or.inr isBinary')).symm

def incrementsAroundStore : String :=
  "define i32 @f(i32 %x, ptr %p) \x7b\n" ++
  "  %a = add i32 %x, 1\n" ++
  "  store i32 %x, ptr %p\n" ++
  "  %y = load i32, ptr %p\n" ++
  "  %b = add i32 %y, 1\n" ++
  "\x7d\n"

def incrementTypes (v : Value) : String := if v.id = 1 then "ptr" else "i32"

theorem incrementsAroundStore_typed :
    ∃ m fn earlier r, read incrementsAroundStore = .ok m ∧ m.functions = [fn] ∧
    UsedAtOneType fn incrementTypes ∧ LoadsAgree fn.actions incrementTypes ∧
      LiteralsAgree fn.actions incrementTypes ∧
    (Numbering.ofFunction {} fn).numbering.records = earlier ++ [r] ∧ r.redundant = true ∧
      r.instruction.type = "i32" ∧
    ∃ key e, r.key? = some key ∧ earlier.filter (Record.introduces key) = [e] ∧
      e.instruction.type = "i32" := by
  have outline : ((read incrementsAroundStore).toOption.map fun m => m.functions.map fun fn =>
      (decide (UsedAtOneType fn incrementTypes), fn.actions,
        (Numbering.ofFunction {} fn).numbering.records.map fun r =>
          (r.redundant, r.instruction.type))) =
      some [(true,
        [.binary .add ⟨2, .result (some "a")⟩ ⟨0, .argument "x" "i32"⟩ ⟨3, .literal 1 "i32"⟩,
        .store ⟨0, .argument "x" "i32"⟩ ⟨1, .argument "p" "ptr"⟩,
        .load ⟨5, .result (some "y")⟩ ⟨1, .argument "p" "ptr"⟩,
        .binary .add ⟨6, .result (some "b")⟩ ⟨5, .result (some "y")⟩ ⟨7, .literal 1 "i32"⟩],
        [(false, "i32"), (false, "void"), (false, "i32"), (true, "i32")])] := by
    decide +kernel
  obtain ⟨m, fn, accepted, only, facts⟩ := exists_function_of_view outline
  simp only [Prod.mk.injEq, decide_eq_true_eq] at facts
  obtain ⟨used, actions, listed⟩ := facts
  have isFunction : fn ∈ m.functions := only ▸ List.mem_singleton_self fn
  have literals : LiteralsAgree fn.actions incrementTypes := by
    rw [actions]
    unfold LiteralsAgree
    decide
  have loads : LoadsAgree fn.actions incrementTypes := by
    rw [actions]
    intro before result pointer after inOrder stored found
    -- the one load stands after two actions
    rcases before with _ | ⟨first, _ | ⟨second, _ | ⟨third, _ | ⟨fourth, more⟩⟩⟩⟩ <;>
      simp only [List.nil_append, List.cons_append, List.cons.injEq, reduceCtorEq, false_and,
        and_false] at inOrder
    · obtain ⟨rfl, rfl, isLoad, -⟩ := inOrder
      cases isLoad
      cases found
      rfl
    · simp at inOrder
  have inOrder : (Numbering.ofFunction {} fn).numbering.records.map
      (fun r => (r.redundant, r.instruction.type)) =
      [(false, "i32"), (false, "void"), (false, "i32")] ++ [(true, "i32")] := listed
  obtain ⟨earlier, last, recorded, -, isLast⟩ := List.map_eq_append_iff.mp inOrder
  obtain ⟨r, rfl, shown⟩ := List.map_eq_singleton_iff.mp isLast
  obtain ⟨redundant, type⟩ := Prod.mk.inj shown
  have inRange : Line.columnInRange ({} : Numbering.Settings).column = true := by decide
  obtain ⟨key, e, isKey, introduced, -, sameType⟩ :=
    (redundant_operations_typed accepted isFunction used loads {}
    (fun _ => literals) inRange).2 earlier r [] recorded redundant
  exact ⟨m, fn, earlier, r, accepted, only, used, loads, literals, recorded, redundant, type, key,
    e, isKey, introduced, sameType.trans type⟩

def sumsOfLiterals : String :=
  "define i64 @f() \x7b\n" ++
  "  %a = add i32 1, 2\n" ++
  "  %b = add i64 1, 2\n" ++
  "\x7d\n"

def doublesAroundLoad : String :=
  "define i64 @f(i32 %x, ptr %p) \x7b\n" ++
  "  store i32 %x, ptr %p\n" ++
  "  %y = load i64, ptr %p\n" ++
  "  %a = add i32 %x, %x\n" ++
  "  %b = add i64 %y, %y\n" ++
  "\x7d\n"

/-- Every use has the type that its value was defined with, where the value has one by itself. -/
def UsedAsDefined (fn : Function) : Prop :=
  ∀ inst ∈ fn.instructions, ∀ operand ∈ inst.operands,
    operand.value.form.type?.all (· = operand.type) = true

instance (fn : Function) : Decidable (UsedAsDefined fn) := inferInstanceAs (Decidable (∀ _ ∈ _, _))

/-- The last operation is reported, and the earlier one that was new under its key has another
type. -/
def ReportedAcrossTypes (fn : Function) : Prop :=
  ∃ earlier r key e, (Numbering.ofFunction {} fn).numbering.records = earlier ++ [r] ∧
    r.redundant = true ∧
    r.key? = some key ∧ earlier.filter (Record.introduces key) = [e] ∧
      e.instruction.type ≠ r.instruction.type

theorem reportedAcrossTypes_of_views {fn : Function} {key : Expression} {type other : String}
    {views : List (Bool × Bool × String)}
    (listed : (Numbering.ofFunction {} fn).numbering.records.map
      (fun r => (Record.introduces key r, r.redundant && r.key? = some key, r.instruction.type)) =
      views ++ [(false, true, type)])
    (one : views.filter (·.1) = [(true, false, other)]) (different : other ≠ type) :
    ReportedAcrossTypes fn := by
  obtain ⟨earlier, last, recorded, areViews, isLast⟩ := List.map_eq_append_iff.mp listed
  obtain ⟨r, rfl, shown⟩ := List.map_eq_singleton_iff.mp isLast
  simp only [Prod.mk.injEq, Bool.and_eq_true, decide_eq_true_eq] at shown
  obtain ⟨-, ⟨redundant, isKey⟩, rfl⟩ := shown
  rw [← areViews, List.filter_map] at one
  obtain ⟨e, introduced, shown⟩ := List.map_eq_singleton_iff.mp one
  obtain rfl : e.instruction.type = other := by simpa using congrArg (·.2.2) shown
  exact ⟨earlier, r, key, e, recorded, redundant, isKey, introduced, different⟩

/-- A text of one function with such a report, though every value in it is used at one type. -/
def MixesTypes (text : String) : Prop :=
  ∃ m fn typeOf, read text = .ok m ∧ m.functions = [fn] ∧ UsedAtOneType fn typeOf ∧
    UsedAsDefined fn ∧ ReportedAcrossTypes fn

/-- Numbers carry no type: equal literals share one number at all types, and a load takes over the
number that was stored. -/
theorem operations_of_other_types_reported :
    MixesTypes sumsOfLiterals ∧ MixesTypes doublesAroundLoad := by
  have outline : ((read sumsOfLiterals).toOption.map fun m => m.functions.map fun fn =>
      (decide (UsedAtOneType fn (fun v => if v.id < 3 then "i32" else "i64") ∧ UsedAsDefined fn),
        (Numbering.ofFunction {} fn).numbering.records.map fun r =>
          (Record.introduces ⟨.add, 1, 2⟩ r, r.redundant && r.key? = some ⟨.add, 1, 2⟩,
            r.instruction.type))) =
      some [(true, [(true, false, "i32")] ++ [(false, true, "i64")])] := by
    decide +kernel
  have outline' : ((read doublesAroundLoad).toOption.map fun m => m.functions.map fun fn =>
      (decide (UsedAtOneType fn (fun v => if v.id = 1 then "ptr" else if v.id = 0 ∨
        v.id = 4 then "i32" else "i64") ∧
        UsedAsDefined fn), (Numbering.ofFunction {} fn).numbering.records.map fun r =>
          (Record.introduces ⟨.add, 1, 1⟩ r, r.redundant && r.key? = some ⟨.add, 1, 1⟩,
            r.instruction.type))) =
      some [(true, [(false, false, "void"), (false, false, "i64"), (true, false, "i32")] ++
        [(false, true, "i64")])] := by
    decide +kernel
  constructor
  · obtain ⟨m, fn, accepted, only, facts⟩ := exists_function_of_view outline
    obtain ⟨typed, listed⟩ := Prod.mk.inj facts
    obtain ⟨used, asDefined⟩ := of_decide_eq_true typed
    exact ⟨m, fn, _, accepted, only, used, asDefined,
      reportedAcrossTypes_of_views listed rfl (by decide)⟩
  · obtain ⟨m, fn, accepted, only, facts⟩ := exists_function_of_view outline'
    obtain ⟨typed, listed⟩ := Prod.mk.inj facts
    obtain ⟨used, asDefined⟩ := of_decide_eq_true typed
    exact ⟨m, fn, _, accepted, only, used, asDefined,
      reportedAcrossTypes_of_views listed rfl (by decide)⟩

end ValueNumbering.Assembly

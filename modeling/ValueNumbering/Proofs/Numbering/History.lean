import ValueNumbering.Proofs.Numbering.Actions

/-!
A finished run and what it has recorded: what every visit keeps holds at the end, each instruction
leaves the record that is decided at its place, and the table has one entry for each operation that
was new.
-/

namespace ValueNumbering

theorem Instruction.action_of_action? {inst : Instruction} {action : Action}
    (found : inst.action? = some action) :
    inst.action = .ok (some action) := by
  unfold Instruction.action? at found
  split at found
  · next decided => rw [decided, found]
  · cases found

namespace Numbering

/-- What holds before the first instruction and is kept by every visit holds after a run without a
fault. -/
theorem invariant_of_visitAll {column : Int} (invariant : List Instruction → Numbering → Prop)
    (kept : ∀ before n inst next, invariant before n → Visited column n inst next →
      invariant (before ++ [inst]) next)
    (before : List Instruction) {instructions : List Instruction} {n : Numbering}
    (held : invariant before n) (finished : (visitAll column n instructions).fault = none) :
    invariant (before ++ instructions) (visitAll column n instructions).numbering := by
  induction instructions generalizing before n with
  | nil => simpa [visitAll] using held
  | cons inst rest ih =>
      unfold visitAll at finished ⊢
      split at finished
      · cases finished
      · next next step =>
          have after := kept before n inst next held (visited_of_visit step)
          simpa using ih (before ++ [inst]) after finished

theorem record_mem_of_visitAll {column : Int} {n : Numbering} {instructions : List Instruction}
    {r : Record} (member : r ∈ n.records)
    (finished : (visitAll column n instructions).fault = none) :
    r ∈ (visitAll column n instructions).numbering.records := by
  obtain ⟨records, added⟩ := visitAll_added finished
  rw [added.records_eq]
  exact List.mem_append_left _ member

theorem exists_record {column : Int} {n : Numbering} {before after : List Instruction}
    {inst : Instruction} {action : Action} (found : inst.action? = some action)
    (finished : (visitAll column n (before ++ inst :: after)).fault = none) :
    ∃ r ∈ (visitAll column n (before ++ inst :: after)).numbering.records, r.instruction = inst ∧
      r.toDecision =
        ((n.knowledge.performAll (before.filterMap (·.action?))).2.perform action).1 := by
  induction before generalizing n with
  | nil =>
      rw [List.nil_append] at finished ⊢
      unfold visitAll at finished ⊢
      split at finished
      · cases finished
      · next next step =>
          have decided := Instruction.action_of_action? found
          cases visited_of_visit step with
          | skipped unmodelled =>
              rw [decided] at unmodelled
              cases unmodelled
          | @recorded other line other_found shown =>
              rw [decided] at other_found
              obtain rfl := Option.some.inj (Except.ok.inj other_found)
              refine ⟨_, record_mem_of_visitAll
                (List.mem_append_right _ (List.mem_singleton_self _)) finished, rfl, rfl⟩
  | cons first rest ih =>
      rw [List.cons_append] at finished ⊢
      unfold visitAll at finished ⊢
      split at finished
      · cases finished
      · next next step =>
          obtain ⟨r, member, isInst, decision⟩ := ih finished
          refine ⟨r, member, isInst, ?_⟩
          cases visited_of_visit step with
          | skipped unmodelled =>
              have absent : first.action? = none := by simp [Instruction.action?, unmodelled]
              rw [List.filterMap_cons_none absent]
              exact decision
          | @recorded passed line other shown =>
              have present : first.action? = some passed := by simp [Instruction.action?, other]
              rw [List.filterMap_cons_some present]
              exact decision

end Numbering

def Record.key? (r : Record) : Option Expression :=
  match r.operands with
  | [some left, some right] => some (Expression.canonical r.instruction.opcode left right)
  | _ => none

def Record.introduces (key : Expression) (r : Record) : Bool :=
  r.instruction.isBinary && !r.redundant && decide (r.key? = some key)

namespace Numbering

/-- The table has exactly the operations that were new, each under its key. -/
def Entered (n : Numbering) : Prop :=
  ∀ key, (n.records.filter (Record.introduces key)).map (·.number) =
    (n.knowledge.table.find? key).toList

/-- A record has the number and the key of the one earlier record that was new under the key. -/
def Backs (earlier : List Record) (r : Record) : Prop :=
  r.instruction.isBinary = true ∧
    ∃ key e, r.key? = some key ∧ earlier.filter (Record.introduces key) = [e] ∧ e.number = r.number

def Backed (records : List Record) : Prop :=
  ∀ earlier r later, records = earlier ++ r :: later → r.redundant = true → Backs earlier r

theorem Backed.concat {records : List Record} {last : Record} (backed : Backed records)
    (new : last.redundant = true → Backs records last) : Backed (records ++ [last]) := by
  intro earlier r later split
  rcases List.eq_nil_or_concat' later with rfl | ⟨front, final, rfl⟩
  · obtain ⟨rfl, tail⟩ := List.append_inj' split rfl
    cases tail
    exact new
  · rw [← List.cons_append, ← List.append_assoc] at split
    exact backed earlier r front (List.append_inj' split rfl).1

theorem Entered.other {n : Numbering} (entered : Entered n) {r : Record}
    (passed : ∀ key, r.introduces key = false) {k : Knowledge}
    (same : k.table = n.knowledge.table) : Entered ⟨k, n.records ++ [r]⟩ := by
  intro key
  simpa [passed key, same] using entered key

theorem Entered.exists_entry {n : Numbering} (entered : Entered n) {key : Expression} {number : Int}
    (found : n.knowledge.table.find? key = some number) :
    ∃ e, n.records.filter (Record.introduces key) = [e] ∧ e.number = number := by
  have numbers := entered key
  rw [found, Option.toList_some] at numbers
  exact List.map_eq_singleton_iff.mp numbers

theorem loadFrom_table (k : Knowledge) (result pointer : Value) :
    (k.loadFrom result pointer).1.redundant = false ∧
      (k.loadFrom result pointer).2.table = k.table := by
  unfold Knowledge.loadFrom
  split <;> exact ⟨rfl, rfl⟩

/-- The table and the new operations stay in step, and what is redundant has its entry. -/
theorem Entered.visit {column : Int} {n next : Numbering} {inst : Instruction} (entered : Entered n)
    (backed : Backed n.records) (visited : Visited column n inst next) :
    Entered next ∧ Backed next.records := by
  cases visited with
  | skipped unmodelled => exact ⟨entered, backed⟩
  | @recorded action line found shown =>
      cases Instruction.action_some found with
      | store opcode first last =>
          have notBinary := Instruction.isBinary_of_store opcode
          refine ⟨entered.other (fun key => by simp [Record.introduces, notBinary]) rfl,
            backed.concat ?_⟩
          intro redundant
          cases redundant
      | load opcode last =>
          have notBinary := Instruction.isBinary_of_load opcode
          obtain ⟨fresh, table⟩ := loadFrom_table n.knowledge inst.result _
          refine ⟨entered.other (fun key => by simp [Record.introduces, notBinary]) table,
            backed.concat ?_⟩
          intro redundant
          rw [Knowledge.perform] at redundant
          simp [fresh] at redundant
      | @binary lhs rhs opcode both =>
          rcases resolved : n.knowledge.store.resolve lhs.value with ⟨left, first⟩
          rcases resolved' : first.resolve rhs.value with ⟨right, second⟩
          rw [Knowledge.perform]
          cases entry : n.knowledge.table.find? (Expression.canonical inst.opcode left right) with
          | some number =>
              rw [Knowledge.compute_known resolved resolved' entry]
              refine ⟨entered.other (fun key => by simp [Record.introduces]) rfl,
                backed.concat fun _ => ?_⟩
              obtain ⟨e, only, isNumber⟩ := entered.exists_entry entry
              exact ⟨opcode, _, e, rfl, only, isNumber⟩
          | none =>
              rw [Knowledge.compute_new resolved resolved' entry]
              refine ⟨?_, backed.concat fun redundant => by cases redundant⟩
              intro key
              have before := entered key
              rw [Dictionary.find?_insert]
              by_cases same : Expression.canonical inst.opcode left right = key
              · rw [← same, entry] at before
                have none : n.records.filter (Record.introduces key) = [] := by
                  simpa [same] using before
                simp [none, Record.introduces, Record.key?, opcode, same]
              · simpa [Record.introduces, Record.key?, opcode, same] using before

theorem backed_of_finished {settings : Settings} {fn : Function}
    (finished : (ofFunction settings fn).fault = none) :
    Backed (ofFunction settings fn).numbering.records := by
  have held := invariant_of_visitAll (fun _ n => Entered n ∧ Backed n.records)
    (fun _ _ _ _ held visited => held.1.visit held.2 visited) []
      ⟨by simp [Entered], by simp [Backed]⟩ finished
  exact held.2

end Numbering

end ValueNumbering

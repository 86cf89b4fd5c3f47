import ValueNumbering.Proofs.Dictionaries
import ValueNumbering.Proofs.Numbering.NumbersHeld
import ValueNumbering.Proofs.Numbering.Renaming
import Mathlib.Data.Finset.Card

/-!
Every number of a run is accounted for. A number is given out for a literal, for a new key, for a
load from a pointer that holds none, or for a value that is used as an operand before anything has
been bound to it.
-/

namespace ValueNumbering

/-- How a run has to do with a value: it uses it as an operand, or it binds a number to it as a
result. -/
inductive Touch
  | used (v : Value)
  | bound (v : Value)
  deriving DecidableEq, Repr

def Touch.value : Touch → Value
  | used v | bound v => v

def Action.touches : Action → List Touch
  | .store value _ => [.used value]
  | .load result _ => [.bound result]
  | .binary _ result lhs rhs => [.used lhs, .used rhs, .bound result]

@[simp] theorem Action.touches_store (value pointer : Value) :
    (Action.store value pointer).touches = [.used value] :=
  rfl

@[simp] theorem Action.touches_load (result pointer : Value) :
    (Action.load result pointer).touches = [.bound result] :=
  rfl

@[simp] theorem Action.touches_binary (opcode : Opcode) (result lhs rhs : Value) :
    (Action.binary opcode result lhs rhs).touches = [.used lhs, .used rhs, .bound result] := rfl

def Function.touches (fn : Function) : List Touch := fn.actions.flatMap (·.touches)

def usedFirst (shareLiterals : Bool) (touches : List Touch) : Finset Value :=
  (touches.map (·.value)).toFinset.filter fun v =>
    sharedLiteral? shareLiterals v = none ∧ touches.find? (·.value = v) = some (.used v)

theorem mem_usedFirst {shareLiterals : Bool} {touches : List Touch} {v : Value} :
    v ∈ usedFirst shareLiterals touches ↔
      sharedLiteral? shareLiterals v = none ∧ touches.find? (·.value = v) = some (.used v) := by
  rw [usedFirst, Finset.mem_filter, List.mem_toFinset]
  refine ⟨fun member => member.2, fun first => ⟨?_, first⟩⟩
  exact List.mem_map.mpr ⟨_, List.mem_of_find?_eq_some first.2, rfl⟩

theorem mem_usedFirst_concat {shareLiterals : Bool} {touches : List Touch} {t : Touch} {v : Value} :
    v ∈ usedFirst shareLiterals (touches ++ [t]) ↔ v ∈ usedFirst shareLiterals touches ∨
      sharedLiteral? shareLiterals v = none ∧ v ∉ touches.map (·.value) ∧ t = .used v := by
  rw [mem_usedFirst, mem_usedFirst, List.find?_append, List.find?_singleton]
  cases found : touches.find? (·.value = v) with
  | some first =>
      have touched : v ∈ touches.map (·.value) :=
        List.mem_map.mpr ⟨first, List.mem_of_find?_eq_some found, by
          simpa using List.find?_some found⟩
      simp [touched]
  | none =>
      have untouched : v ∉ touches.map (·.value) := by
        intro touched
        obtain ⟨first, member, same⟩ := List.mem_map.mp touched
        exact List.find?_eq_none.mp found first member (decide_eq_true same)
      have last : ((if decide (t.value = v) = true then some t else none) = some (.used v)) ↔
          t = .used v := by
        constructor
        · intro isLast
          split at isLast
          · exact Option.some.inj isLast
          · cases isLast
        · rintro rfl
          simp [Touch.value]
      rw [Option.none_or, last]
      simp only [untouched, not_false_eq_true, true_and, reduceCtorEq, and_false, false_or]

theorem usedFirst_concat_bound (shareLiterals : Bool) (touches : List Touch) (result : Value) :
    usedFirst shareLiterals (touches ++ [.bound result]) = usedFirst shareLiterals touches := by
  ext v
  simp [mem_usedFirst_concat]

theorem usedFirst_concat_old {shareLiterals : Bool} {touches : List Touch} {v : Value}
    (old : sharedLiteral? shareLiterals v = none → v ∈ touches.map (·.value)) :
    usedFirst shareLiterals (touches ++ [.used v]) = usedFirst shareLiterals touches := by
  ext w
  rw [mem_usedFirst_concat]
  refine ⟨fun member => ?_, Or.inl⟩
  rcases member with member | ⟨plain, new, same⟩
  · exact member
  · cases same
    exact absurd (old plain) new

theorem card_usedFirst_concat_new {shareLiterals : Bool} {touches : List Touch} {v : Value}
    (plain : sharedLiteral? shareLiterals v = none) (new : v ∉ touches.map (·.value)) :
    (usedFirst shareLiterals (touches ++ [.used v])).card =
      (usedFirst shareLiterals touches).card + 1 := by
  have absent : v ∉ usedFirst shareLiterals touches := by
    intro member
    rw [usedFirst, Finset.mem_filter, List.mem_toFinset] at member
    exact new member.1
  have whole : usedFirst shareLiterals (touches ++ [.used v]) =
      insert v (usedFirst shareLiterals touches) := by
    ext w
    rw [mem_usedFirst_concat, Finset.mem_insert, or_comm]
    refine or_congr ⟨fun last => (Touch.used.inj last.2.2).symm, ?_⟩ Iff.rfl
    rintro rfl
    exact ⟨plain, new, rfl⟩
  rw [whole, Finset.card_insert_of_notMem absent]

/-- The counter of a store against the causes for which it was moved; `others` are the keys and the
loads. -/
structure Balance (s : Store) (others : Nat) (touches : List Touch) : Prop where
  total : s.next = 1 + s.literals.size + others + (usedFirst s.shareLiterals touches).card
  known : ∀ v, sharedLiteral? s.shareLiterals v = none →
    (s.values.find? v = none ↔ v ∉ touches.map (·.value))

namespace Balance

variable {s : Store} {others : Nat} {touches : List Touch}

theorem start (shareLiterals : Bool) : Balance { shareLiterals := shareLiterals } 0 [] where
  total := rfl
  known := by simp

theorem resolve (balance : Balance s others touches) (v : Value) :
    Balance (s.resolve v).2 others (touches ++ [.used v]) := by
  have total := balance.total
  cases known : s.known? v with
  | some n =>
      rw [Store.resolve_of_known known]
      have touched : sharedLiteral? s.shareLiterals v = none → v ∈ touches.map (·.value) := by
        intro plain
        have held : s.values.find? v ≠ none := by
          simpa [Store.known?, plain] using Option.ne_none_iff_exists'.mpr ⟨n, known⟩
        exact not_not.mp fun untouched => held ((balance.known v plain).mpr untouched)
      constructor
      · rwa [usedFirst_concat_old touched]
      · intro w plain
        rw [balance.known w plain]
        by_cases same : w = v
        · subst same
          simp [touched plain]
        · simp [Touch.value, same]
  | none =>
      rw [Store.resolve_of_unknown known]
      cases shared : sharedLiteral? s.shareLiterals v with
      | some c =>
          have missing : s.literals.find? c = none := by simpa [Store.known?, shared] using known
          constructor
          · rw [usedFirst_concat_old (by simp [shared]), Dictionary.size_insert_of_missing missing]
            push_cast
            omega
          · intro w plain
            have other : w ≠ v := by
              rintro rfl
              rw [plain] at shared
              cases shared
            rw [balance.known w plain]
            simp [Touch.value, other]
      | none =>
          have missing : s.values.find? v = none := by simpa [Store.known?, shared] using known
          have untouched := (balance.known v shared).mp missing
          constructor
          · rw [card_usedFirst_concat_new shared untouched]
            push_cast
            omega
          · intro w plain
            rw [Dictionary.find?_insert]
            by_cases same : v = w
            · simp [same, Touch.value]
            · rw [if_neg same, balance.known w plain]
              simp [Touch.value, Ne.symm same]

/-- A result is bound, to a number of its own or to one that is known. -/
theorem bind (balance : Balance s others touches) (result : Value) (n : Int) {next : Int}
    (more : Nat) (moved : next = s.next + more) :
    Balance { s with next := next, values := s.values.insert result n } (others + more)
      (touches ++ [.bound result]) := by
  have total := balance.total
  constructor
  · rw [usedFirst_concat_bound, moved]
    push_cast
    omega
  · intro w plain
    rw [Dictionary.find?_insert]
    by_cases same : result = w
    · simp [same, Touch.value]
    · rw [if_neg same, balance.known w plain]
      simp [Touch.value, Ne.symm same]

theorem assign (balance : Balance s others touches) (result : Value) (n : Int) :
    Balance (s.assign result n) others (touches ++ [.bound result]) :=
  balance.bind result n 0 (Int.add_zero _).symm

theorem fresh (balance : Balance s others touches) (result : Value) :
    Balance (s.fresh result).2 (others + 1) (touches ++ [.bound result]) :=
  balance.bind result s.next 1 rfl

theorem recordPointer (balance : Balance s others touches) (pointer : Value) (n : Int) :
    Balance (s.recordPointer pointer n) others touches :=
  ⟨balance.total, balance.known⟩

end Balance

def Record.isUnwrittenLoad (r : Record) : Bool :=
  decide (r.instruction.opcode = .load) && decide (r.operands = [none])

def Record.isNewOperation (r : Record) : Bool := r.instruction.isBinary && !r.redundant

namespace Numbering

/-- The books of a run after some instructions: what the counter was moved for, and what the table
was written for. -/
structure Booked (before : List Instruction) (n : Numbering) : Prop where
  balance : Balance n.knowledge.store
    (n.knowledge.table.size + n.records.countP (·.isUnwrittenLoad))
    ((before.filterMap (·.action?)).flatMap (·.touches))
  entries : n.knowledge.table.entries.map (fun entry => (some entry.1, entry.2)) =
    (n.records.filter (·.isNewOperation)).map fun r => (r.key?, r.number)
  tableSize : n.knowledge.table.size + n.redundant.length =
    n.records.countP (·.instruction.isBinary)

namespace Booked

variable {before : List Instruction} {n : Numbering} {inst : Instruction} {line : String}

theorem skip (booked : Booked before n) (unmodelled : inst.action = .ok none) :
    Booked (before ++ [inst]) n := by
  have absent : inst.action? = none := by simp [Instruction.action?, unmodelled]
  have same : (before ++ [inst]).filterMap (·.action?) = before.filterMap (·.action?) := by
    simp [absent]
  exact ⟨same ▸ booked.balance, booked.entries, booked.tableSize⟩

theorem store (booked : Booked before n) (opcode : inst.opcode = .store) {value pointer : Value}
    (present : inst.action? = some (.store value pointer)) :
    Booked (before ++ [inst]) ⟨(n.knowledge.storeThrough value pointer).2,
      n.records ++ [{ (n.knowledge.storeThrough value pointer).1 with
        instruction := inst, line := line }]⟩ := by
  have notBinary := Instruction.isBinary_of_store opcode
  rw [Knowledge.storeThrough]
  constructor
  · have written := (booked.balance.resolve value).recordPointer pointer
      (n.knowledge.store.resolve value).1
    simpa [present, Record.isUnwrittenLoad, opcode] using written
  · simpa [Record.isNewOperation, notBinary] using booked.entries
  · simpa [notBinary, Numbering.redundant] using booked.tableSize

theorem load (booked : Booked before n) (opcode : inst.opcode = .load) {result pointer : Value}
    (present : inst.action? = some (.load result pointer)) :
    Booked (before ++ [inst]) ⟨(n.knowledge.loadFrom result pointer).2,
      n.records ++ [{ (n.knowledge.loadFrom result pointer).1 with
        instruction := inst, line := line }]⟩ := by
  have notBinary := Instruction.isBinary_of_load opcode
  obtain ⟨fresh, sameTable⟩ := loadFrom_table n.knowledge result pointer
  constructor
  · cases written : n.knowledge.store.pointerNumber pointer with
    | some number =>
        have bound := booked.balance.assign result number
        simpa [present, Knowledge.loadFrom_written written, Record.isUnwrittenLoad] using bound
    | none =>
        have bound := booked.balance.fresh result
        simpa [present, Knowledge.loadFrom_unwritten written, Record.isUnwrittenLoad, opcode,
          ← Nat.add_assoc] using bound
  · simpa [Record.isNewOperation, notBinary, sameTable] using booked.entries
  · simpa [notBinary, Numbering.redundant, sameTable, fresh] using booked.tableSize

theorem binary (booked : Booked before n) (isBinary : inst.isBinary = true)
    {result lhs rhs : Value} (present : inst.action? = some (.binary inst.opcode result lhs rhs)) :
    Booked (before ++ [inst]) ⟨(n.knowledge.compute inst.opcode result lhs rhs).2,
      n.records ++ [{ (n.knowledge.compute inst.opcode result lhs rhs).1 with
        instruction := inst, line := line }]⟩ := by
  have notLoad : inst.opcode ≠ .load := by
    intro isLoad
    cases (Instruction.isBinary_of_load isLoad).symm.trans isBinary
  rcases resolved : n.knowledge.store.resolve lhs with ⟨left, first⟩
  rcases resolved' : first.resolve rhs with ⟨right, second⟩
  have operands := (booked.balance.resolve lhs).resolve rhs
  rw [resolved, resolved', List.append_assoc] at operands
  cases entry : n.knowledge.table.find? (Expression.canonical inst.opcode left right) with
  | some number =>
      rw [Knowledge.compute_known resolved resolved' entry]
      constructor
      · have bound := operands.assign result number
        simpa [present, Record.isUnwrittenLoad, notLoad] using bound
      · simpa [Record.isNewOperation] using booked.entries
      · simpa [isBinary, Numbering.redundant, ← Nat.add_assoc] using booked.tableSize
  | none =>
      rw [Knowledge.compute_new resolved resolved' entry]
      have absent := (Dictionary.find?_eq_none_iff _ _).mp entry
      have wider := Dictionary.size_insert_of_missing entry second.next
      constructor
      · have bound := operands.fresh result
        simpa [present, wider, Record.isUnwrittenLoad, notLoad, Nat.add_right_comm] using bound
      · rw [Dictionary.entries_insert_of_not_mem _ absent, List.map_append, booked.entries]
        simp [Record.isNewOperation, Record.key?, isBinary]
      · simpa [isBinary, wider, Numbering.redundant, Nat.add_right_comm _ 1] using booked.tableSize

theorem visit {column : Int} {next : Numbering} (booked : Booked before n)
    (visited : Visited column n inst next) : Booked (before ++ [inst]) next := by
  cases visited with
  | skipped unmodelled => exact booked.skip unmodelled
  | @recorded action line found shown =>
      have present : inst.action? = some action := by simp [Instruction.action?, found]
      cases Instruction.action_some found with
      | store opcode => exact booked.store opcode present
      | load opcode => exact booked.load opcode present
      | binary opcode => exact booked.binary opcode present

end Booked

structure InOrder (n : Numbering) : Prop where
  orderly : n.knowledge.Orderly
  recorded : ∀ r ∈ n.records, ∀ number, some number ∈ r.numbers → n.knowledge.store.Gave number

theorem InOrder.visit {column : Int} {n next : Numbering} {inst : Instruction} (inOrder : InOrder n)
    (visited : Visited column n inst next) : InOrder next := by
  cases visited with
  | skipped unmodelled => exact inOrder
  | @recorded action line found shown =>
      obtain ⟨orderly, gave⟩ := inOrder.orderly.perform action
      refine ⟨orderly, fun r isRecord number mentions => ?_⟩
      rcases List.mem_append.mp isRecord with earlier | last
      · exact (inOrder.recorded r earlier number mentions).mono
          (Knowledge.next_le_perform n.knowledge action)
      · cases List.mem_singleton.mp last
        exact gave number mentions

/-- The account of a run of a function: what its numbers were given out for, where they are, and
what the table has. -/
structure Accounted (settings : Settings) (fn : Function) (n : Numbering) : Prop where
  total : n.knowledge.store.next - 1 = n.knowledge.store.literals.size + n.knowledge.table.size +
    n.records.countP (·.isUnwrittenLoad) + (usedFirst settings.shareLiterals fn.touches).card
  orderly : n.knowledge.Orderly
  recorded : ∀ r ∈ n.records, ∀ number, some number ∈ r.numbers → n.knowledge.store.Gave number
  mentioned : ∀ number, n.knowledge.store.Gave number → ∃ r ∈ n.records, some number ∈ r.numbers
  entries : n.knowledge.table.entries.map (fun entry => (some entry.1, entry.2)) =
    (n.records.filter (·.isNewOperation)).map fun r => (r.key?, r.number)
  tableSize : n.knowledge.table.size + n.redundant.length =
    n.records.countP (·.instruction.isBinary)

/-- The counter of a run without a fault has moved once for each cause of a number, and each number
occurs in a record. -/
theorem every_number_accounted {settings : Settings} {fn : Function}
    (finished : (ofFunction settings fn).fault = none) :
    Accounted settings fn (ofFunction settings fn).numbering := by
  have start : Booked [] ⟨initial settings.shareLiterals, []⟩ ∧
      InOrder ⟨initial settings.shareLiterals, []⟩ :=
    ⟨⟨.start _, rfl, rfl⟩, ⟨.empty _, by simp⟩⟩
  have held : Booked fn.instructions (ofFunction settings fn).numbering ∧
      InOrder (ofFunction settings fn).numbering :=
    invariant_of_visitAll (fun before n => Booked before n ∧ InOrder n)
      (fun _ _ _ _ held visited => ⟨held.1.visit visited, held.2.visit visited⟩) [] start finished
  obtain ⟨⟨balance, entries, tableSize⟩, orderly, recorded⟩ := held
  have sharing : (ofFunction settings fn).numbering.knowledge.store.shareLiterals =
      settings.shareLiterals :=
    shareLiterals_of_visitAll finished
  have mentioned := mentioned_of_visitAll finished
  refine ⟨?_, orderly, recorded, fun number gave => mentioned number gave.1 gave.2, entries,
    tableSize⟩
  have total := balance.total
  rw [sharing] at total
  rw [Function.touches, Function.actions, total]
  push_cast
  omega

end Numbering

def usesAroundLoad : Function :=
  let p : Operand := ⟨"ptr", ⟨0, .argument "p" "ptr"⟩⟩
  let x : Operand := ⟨"i32", ⟨1, .argument "x" "i32"⟩⟩
  let one : Operand := ⟨"i32", ⟨2, .literal 1 "i32"⟩⟩
  let another : Operand := ⟨"i32", ⟨3, .literal 1 "i32"⟩⟩
  let loaded : Instruction := { id := 4, opcode := .load, operands := [p], name := some "v" }
  let early : Instruction :=
    { id := 5, opcode := .add, operands := [loaded.operand, one], name := some "a" }
  let late : Instruction :=
    { id := 6, opcode := .add, operands := [loaded.operand, another], name := some "b" }
  let again : Instruction :=
    { id := 7, opcode := .add, operands := [another, loaded.operand], name := some "c" }
  let last : Instruction :=
    { id := 8, opcode := .sub, operands := [late.operand, x], name := some "d" }
  { name := "loads", blocks := [⟨"entry", [early]⟩, ⟨"rest", [loaded, late, again, last]⟩] }

/-- Seven numbers: one for the literals, three for keys, one for the load, and two for what is used
first. -/
theorem usesAroundLoad_accounted :
    Numbering.Accounted {} usesAroundLoad (Numbering.ofFunction {} usesAroundLoad).numbering ∧
      (Numbering.ofFunction {} usesAroundLoad).numbering.records.map (·.numbers) =
        [[some 3, some 1, some 2], [some 4, none], [some 5, some 4, some 2],
          [some 5, some 2, some 4], [some 7, some 5, some 6]] :=
  ⟨Numbering.every_number_accounted (by decide), by decide⟩

end ValueNumbering

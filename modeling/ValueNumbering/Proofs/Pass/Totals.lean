import Mathlib.Algebra.BigOperators.Group.List.Basic
import Mathlib.Algebra.Ring.Int.Defs
import ValueNumbering.Proofs.Pass.Counts

/-!
What the pass that numbers functions counts. Each numbering adds its amounts to the counts, so after
some functions they are the sums over the numberings, and there is a message for each redundant
record.
-/

namespace ValueNumbering

namespace Reporting

def amounts (n : Numbering) : List (String × Int) :=
  let countOf (test : Record → Bool) : Int := n.records.countP test
  [("instructions_numbered", n.records.length),
    ("stores", countOf fun r => !r.instruction.isBinary && !decide (r.instruction.opcode = .load)),
    ("loads", countOf fun r => !r.instruction.isBinary && decide (r.instruction.opcode = .load)),
    ("binary_ops", countOf (·.instruction.isBinary)), ("redundant", n.redundant.length),
    ("values_numbered", n.knowledge.store.next - 1)]

theorem tally_eq (m : Metrics) (n : Numbering) :
    tally m n = (amounts n).foldl (fun m amount => m.count amount.1 amount.2) m := rfl

theorem find?_foldl_count_other {entries : List (String × Int)} {key : String}
    (absent : key ∉ entries.map (·.1)) (m : Metrics) :
    (entries.foldl (fun m amount => m.count amount.1 amount.2) m).custom.find? key =
      m.custom.find? key := by
  induction entries generalizing m with
  | nil => rfl
  | cons entry rest ih =>
      rw [List.map_cons, List.mem_cons, not_or] at absent
      rw [List.foldl_cons, ih absent.2, Metrics.count,
        Dictionary.find?_insert_of_ne _ _ (Ne.symm absent.1)]

theorem find?_foldl_count {entries : List (String × Int)} (distinct : (entries.map (·.1)).Nodup)
    {key : String} {amount : Int} (listed : (key, amount) ∈ entries) (m : Metrics) :
    (entries.foldl (fun m amount => m.count amount.1 amount.2) m).custom.find? key =
      some ((m.custom.find? key).getD 0 + amount) := by
  induction entries generalizing m with
  | nil => cases listed
  | cons entry rest ih =>
      rw [List.map_cons, List.nodup_cons] at distinct
      rw [List.foldl_cons]
      rcases List.mem_cons.mp listed with rfl | later
      · rw [find?_foldl_count_other distinct.1, Metrics.count, Dictionary.find?_insert_self]
      · have other : entry.1 ≠ key := fun same => distinct.1 (same ▸ List.mem_map_of_mem later)
        rw [ih distinct.2 later, Metrics.count, Dictionary.find?_insert_of_ne _ _ other]

theorem foldl_addMessage (m : Metrics) (fn : Function) (records : List Record) :
    records.foldl (fun m r => m.addMessage (message fn r)) m =
      { m with messages := m.messages ++ records.map (message fn) } := by
  induction records generalizing m with
  | nil => simp
  | cons r rest ih => rw [List.foldl_cons, ih, Metrics.addMessage, List.map_cons, List.append_assoc,
      List.singleton_append]

theorem messages_tally (m : Metrics) (n : Numbering) : (tally m n).messages = m.messages := rfl

theorem find?_record {n : Numbering} {key : String} {amount : Int}
    (listed : (key, amount) ∈ amounts n) (m : Metrics) (fn : Function) :
    (record m fn n).custom.find? key = some ((m.custom.find? key).getD 0 + amount) := by
  have distinct : ((amounts n).map (·.1)).Nodup := by simp [amounts]
  rw [record, foldl_addMessage, tally_eq]
  exact find?_foldl_count distinct listed m

theorem messages_record (m : Metrics) (fn : Function) (n : Numbering) :
    (record m fn n).messages = m.messages ++ n.redundant.map (message fn) := by
  rw [record, foldl_addMessage, messages_tally]

def countAll (settings : Numbering.Settings) (m : Metrics) (fns : List Function) : Metrics :=
  fns.foldl
    (fun m fn => (record m fn (Numbering.ofFunction settings fn).numbering).addFunction fn) m

theorem find?_countAll (settings : Numbering.Settings) {key : String} {amount : Numbering → Int}
    (listed : ∀ n, (key, amount n) ∈ amounts n) (m : Metrics) {fns : List Function}
    (nonempty : fns ≠ []) :
    (countAll settings m fns).custom.find? key =
      some ((m.custom.find? key).getD 0 +
        (fns.map fun fn => amount (Numbering.ofFunction settings fn).numbering).sum) := by
  induction fns generalizing m with
  | nil => exact absurd rfl nonempty
  | cons fn rest ih =>
      have first := find?_record (listed (Numbering.ofFunction settings fn).numbering) m fn
      rw [countAll, List.foldl_cons, ← countAll]
      cases rest with
      | nil => simpa [countAll, Metrics.addFunction] using first
      | cons next more =>
          rw [ih _ (List.cons_ne_nil _ _), Metrics.addFunction, first, Option.getD_some,
            List.map_cons (l := next :: more),
            List.sum_cons, Int.add_assoc]

theorem messages_countAll (settings : Numbering.Settings) (m : Metrics) (fns : List Function) :
    (countAll settings m fns).messages =
      m.messages ++ fns.flatMap fun fn =>
        (Numbering.ofFunction settings fn).numbering.redundant.map (message fn) := by
  induction fns generalizing m with
  | nil => simp [countAll]
  | cons fn rest ih =>
      rw [countAll, List.foldl_cons, ← countAll, ih, Metrics.addFunction, messages_record,
        List.flatMap_cons, List.append_assoc]

end Reporting

theorem Instruction.kind_of_isNumbered {inst : Instruction} (numbered : inst.isNumbered = true) :
    inst.opcode = .store ∧ inst.isBinary = false ∨ inst.opcode = .load ∧ inst.isBinary = false ∨
      inst.isBinary = true ∧ inst.opcode ≠ .store ∧ inst.opcode ≠ .load := by
  simp only [isNumbered, Bool.or_eq_true, decide_eq_true_eq] at numbered
  rcases numbered with (store | load) | binary
  · exact Or.inl ⟨store, isBinary_of_store store⟩
  · exact Or.inr (Or.inl ⟨load, isBinary_of_load load⟩)
  · refine Or.inr (Or.inr ⟨binary, fun store => ?_, fun load => ?_⟩)
    · cases (isBinary_of_store store).symm.trans binary
    · cases (isBinary_of_load load).symm.trans binary

namespace Numbering

def storeCount (n : Numbering) : Int :=
  n.records.countP fun r => decide (r.instruction.opcode = .store)

def loadCount (n : Numbering) : Int :=
  n.records.countP fun r => decide (r.instruction.opcode = .load)

def operationCount (n : Numbering) : Int := n.records.countP (·.instruction.isBinary)

theorem countP_kinds {records : List Record}
    (numbered : ∀ r ∈ records, r.instruction.isNumbered = true) :
    records.countP (fun r => decide (r.instruction.opcode = .store)) +
      records.countP (fun r => decide (r.instruction.opcode = .load)) +
      records.countP (·.instruction.isBinary) = records.length := by
  induction records with
  | nil => rfl
  | cons r rest ih =>
      obtain ⟨here, later⟩ := List.forall_mem_cons.mp numbered
      have others := ih later
      rcases Instruction.kind_of_isNumbered here with
        ⟨store, notBinary⟩ | ⟨load, notBinary⟩ | ⟨binary, notStore, notLoad⟩
      · simp [store, notBinary]
        omega
      · simp [load, notBinary]
        omega
      · simp [binary, notStore, notLoad]
        omega

theorem countP_stores {records : List Record}
    (numbered : ∀ r ∈ records, r.instruction.isNumbered = true) :
    records.countP (fun r => !r.instruction.isBinary && !decide (r.instruction.opcode = .load)) =
      records.countP fun r => decide (r.instruction.opcode = .store) := by
  refine List.countP_congr fun r member => ?_
  rcases Instruction.kind_of_isNumbered (numbered r member) with
    ⟨store, notBinary⟩ | ⟨load, notBinary⟩ | ⟨binary, notStore, -⟩
  · simp [store, notBinary]
  · simp [load]
  · simp [binary, notStore]

theorem countP_loads {records : List Record}
    (numbered : ∀ r ∈ records, r.instruction.isNumbered = true) :
    records.countP (fun r => !r.instruction.isBinary && decide (r.instruction.opcode = .load)) =
      records.countP fun r => decide (r.instruction.opcode = .load) := by
  refine List.countP_congr fun r member => ?_
  rcases Instruction.kind_of_isNumbered (numbered r member) with
    ⟨store, notBinary⟩ | ⟨load, notBinary⟩ | ⟨binary, -, notLoad⟩
  · simp [notBinary]
  · simp [notBinary]
  · simp [binary, notLoad]

theorem numbered_of_finished {settings : Settings} {fn : Function}
    (finished : (ofFunction settings fn).fault = none) :
    ∀ r ∈ (ofFunction settings fn).numbering.records, r.instruction.isNumbered = true := by
  intro r member
  have listed := List.mem_map_of_mem (f := Record.instruction) member
  rw [(oneRecordEach_of_finished finished).instructions_eq] at listed
  exact (List.mem_filter.mp listed).2

end Numbering

namespace Reporting

def total (amount : Numbering → Int) (numberings : List Numbering) : Int :=
  (numberings.map amount).sum

theorem total_add (first second : Numbering → Int) (numberings : List Numbering) :
    total (fun n => first n + second n) numberings =
      total first numberings + total second numberings :=
  List.sum_map_add

theorem total_congr {first second : Numbering → Int} {numberings : List Numbering}
    (same : ∀ n ∈ numberings, first n = second n) :
    total first numberings = total second numberings :=
  congrArg List.sum (List.map_congr_left same)

theorem total_cast (amount : Numbering → Nat) (numberings : List Numbering) :
    total (fun n => amount n) numberings = (numberings.map amount).sum := by
  induction numberings with
  | nil => rfl
  | cons n rest ih =>
      rw [total] at ih ⊢
      rw [List.map_cons, List.sum_cons, ih, List.map_cons, List.sum_cons, Int.natCast_add]

/-- What the counts and messages of the pass are after it has numbered some functions. -/
structure Totals (m : Metrics) (numberings : List Numbering) : Prop where
  numbered : m.custom.find? "instructions_numbered" =
    some (total (fun n => n.records.length) numberings)
  stores : m.custom.find? "stores" = some (total (·.storeCount) numberings)
  loads : m.custom.find? "loads" = some (total (·.loadCount) numberings)
  operations : m.custom.find? "binary_ops" = some (total (·.operationCount) numberings)
  kinds : total (·.storeCount) numberings + total (·.loadCount) numberings +
      total (·.operationCount) numberings =
    total (fun n => n.records.length) numberings
  redundant : m.custom.find? "redundant" = some (total (fun n => n.redundant.length) numberings)
  messages : m.messages.length = total (fun n => n.redundant.length) numberings
  values : m.custom.find? "values_numbered" =
    some (total (fun n => n.knowledge.store.next - 1) numberings)

theorem totals_countAll (settings : Numbering.Settings) {fns : List Function} (nonempty : fns ≠ [])
    (finished : ∀ fn ∈ fns, (Numbering.ofFunction settings fn).fault = none) :
    Totals (countAll settings {} fns)
      (fns.map fun fn => (Numbering.ofFunction settings fn).numbering) := by
  have count : ∀ (key : String) (amount : Numbering → Int), (∀ n, (key, amount n) ∈ amounts n) →
      (countAll settings {} fns).custom.find? key =
        some (total amount (fns.map fun fn => (Numbering.ofFunction settings fn).numbering)) := by
    intro key amount listed
    simpa [total, List.map_map, Function.comp_def] using find?_countAll settings listed {} nonempty
  have numbered : ∀ n ∈ fns.map fun fn => (Numbering.ofFunction settings fn).numbering,
      ∀ r ∈ n.records, r.instruction.isNumbered = true := by
    intro n member
    obtain ⟨fn, inside, rfl⟩ := List.mem_map.mp member
    exact Numbering.numbered_of_finished (finished fn inside)
  constructor
  · exact count _ _ fun n => by simp [amounts]
  · rw [count "stores" _ fun n => List.mem_cons_of_mem _ (List.mem_cons_self ..)]
    exact congrArg some (total_congr fun n member =>
      congrArg Nat.cast (Numbering.countP_stores (numbered n member)))
  · rw [count "loads" _ fun n =>
      List.mem_cons_of_mem _ (List.mem_cons_of_mem _ (List.mem_cons_self ..))]
    exact congrArg some (total_congr fun n member =>
      congrArg Nat.cast (Numbering.countP_loads (numbered n member)))
  · exact count _ _ fun n => by simp [amounts, Numbering.operationCount]
  · rw [← total_add, ← total_add]
    refine total_congr fun n member => ?_
    have kinds := Numbering.countP_kinds (numbered n member)
    rw [Numbering.storeCount, Numbering.loadCount, Numbering.operationCount]
    omega
  · exact count _ _ fun n => by simp [amounts]
  · rw [total_cast, messages_countAll, List.nil_append, List.length_flatMap, List.map_map]
    simp [Function.comp_def]
  · exact count _ _ fun n => by simp [amounts]

end Reporting

end ValueNumbering

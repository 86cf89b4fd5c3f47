import ValueNumbering.Proofs.Numbering.Renaming
import ValueNumbering.Proofs.Numbering.SideBySide
import ValueNumbering.Proofs.Numbering.TypedTerms

/-!
Sharing the numbers of equal literals. Of one function, the run with literals apart becomes the run
with literals shared under a function on the numbers, which is the identity where no two operands
are equal literals.
-/

namespace ValueNumbering

namespace Term

/-- How a term is read where equal literals are shared. -/
def shared : Term → Term
  | .unbound v =>
      match v.literal? with
      | some c => .literal c
      | none => .unbound v
  | .operation opcode lhs rhs => .operation opcode lhs.shared rhs.shared
  | t => t

theorem isReading_shared : IsReading shared := ⟨fun _ => rfl, fun _ _ _ => rfl⟩

/-- At the start a value stands for itself, or for its literal where literals are shared. -/
theorem readAs_shared_start (v : Value) :
    ReadAs shared (Symbolic.term { shareLiterals := false } v)
      (Symbolic.term { shareLiterals := true } v) := by
  have apart : Symbolic.term { shareLiterals := false } v = .unbound v := rfl
  rw [ReadAs, apart]
  unfold shared Symbolic.term
  cases v.literal? <;> exact .refl _

end Term

def Function.resolved (fn : Function) : List Value := fn.actions.flatMap (·.resolved)

def LiteralsApart (values : List Value) : Prop :=
  ∀ v ∈ values, ∀ w ∈ values, ∀ c, v.literal? = some c → w.literal? = some c → v = w

theorem literal?_of_shared {shareLiterals : Bool} {v : Value} {c : Int}
    (shared : sharedLiteral? shareLiterals v = some c) :
    v.literal? = some c := by
  unfold sharedLiteral? at shared
  split at shared
  · exact shared
  · cases shared

theorem Store.known?_resolve_other (s : Store) {v w : Value} (other : v ≠ w)
    (apart : ∀ c, v.literal? = some c → w.literal? ≠ some c) :
    (s.resolve v).2.known? w = s.known? w := by
  cases known : s.known? v with
  | some n => rw [resolve_of_known known]
  | none =>
      rw [resolve_of_unknown known]
      unfold known?
      cases literal : sharedLiteral? s.shareLiterals v with
      | none =>
          cases sharedLiteral? s.shareLiterals w with
          | none => exact Dictionary.find?_insert_of_ne _ _ other
          | some c => rfl
      | some c =>
          cases literal' : sharedLiteral? s.shareLiterals w with
          | none => rfl
          | some c' =>
              have different : c ≠ c' := by
                intro same
                exact apart c (literal?_of_shared literal) (same ▸ literal?_of_shared literal')
              exact Dictionary.find?_insert_of_ne _ _ different

namespace Knowledge

/-- Two states of knowledge that differ at most in how they keep the numbers of literals. -/
structure AgreesOn (values : List Value) (k k' : Knowledge) : Prop where
  next : k.store.next = k'.store.next
  table : k.table = k'.table
  known : ∀ v ∈ values, k.store.known? v = k'.store.known? v
  pointers : ∀ p, k.store.pointerNumber p = k'.store.pointerNumber p

variable {values : List Value} {k k' : Knowledge} {v : Value}

theorem AgreesOn.resolve (agrees : AgreesOn values k k') (apart : LiteralsApart values)
    (member : v ∈ values) :
    (k.store.resolve v).1 = (k'.store.resolve v).1 ∧
      AgreesOn values { k with store := (k.store.resolve v).2 }
        { k' with store := (k'.store.resolve v).2 } := by
  have same := agrees.known v member
  have numbers : (k.store.resolve v).1 = (k'.store.resolve v).1 ∧
      (k.store.resolve v).2.next = (k'.store.resolve v).2.next := by
    cases known : k.store.known? v with
    | some n =>
        rw [Store.resolve_of_known known, Store.resolve_of_known (same ▸ known)]
        exact ⟨rfl, agrees.next⟩
    | none =>
        rw [Store.next_resolve_of_unknown known, Store.next_resolve_of_unknown (same ▸ known),
          Store.resolve_of_unknown known, Store.resolve_of_unknown (same ▸ known), agrees.next]
        exact ⟨rfl, rfl⟩
  refine ⟨numbers.1, numbers.2, agrees.table, ?_, ?_⟩
  · intro w isOperand
    by_cases itself : v = w
    · rw [← itself, Store.known?_resolve_self, Store.known?_resolve_self, numbers.1]
    · have others : ∀ c, v.literal? = some c → w.literal? ≠ some c := by
        intro c literal literal'
        exact itself (apart v member w isOperand c literal literal')
      rw [Store.known?_resolve_other _ itself others, Store.known?_resolve_other _ itself others]
      exact agrees.known w isOperand
  · intro p
    rw [Store.resolve_pointerNumber, Store.resolve_pointerNumber]
    exact agrees.pointers p

theorem AgreesOn.bind (agrees : AgreesOn values k k') {result : Value}
    (plain : result.literal? = none) (number : Int) {next next' : Int} (same : next = next') :
    AgreesOn values
      { k with store := { k.store with next := next,
                                       values := k.store.values.insert result number } }
      { k' with store := { k'.store with next := next',
                                         values := k'.store.values.insert result number } } := by
  refine ⟨same, agrees.table, ?_, agrees.pointers⟩
  intro w isOperand
  by_cases itself : result = w
  · have bound : ∀ (s : Store) (n : Int),
        ({ s with next := n, values := s.values.insert result number } : Store).known? w =
        some number := by
      intro s n
      simp [Store.known?, sharedLiteral?, ← itself, plain]
    rw [bound, bound]
  · rw [Store.known?_bind _ itself, Store.known?_bind _ itself]
    exact agrees.known w isOperand

theorem AgreesOn.assign (agrees : AgreesOn values k k') {result : Value}
    (plain : result.literal? = none) (number : Int) :
    AgreesOn values { k with store := k.store.assign result number }
      { k' with store := k'.store.assign result number } :=
  agrees.bind plain number agrees.next

theorem AgreesOn.fresh (agrees : AgreesOn values k k') {result : Value}
    (plain : result.literal? = none) :
    AgreesOn values { k with store := (k.store.fresh result).2 }
      { k' with store := (k'.store.fresh result).2 } := by
  have bound := agrees.bind plain k.store.next (congrArg (· + 1) agrees.next)
  unfold Store.fresh
  rwa [← agrees.next] at bound ⊢

theorem AgreesOn.record (agrees : AgreesOn values k k') (key : Expression) (number : Int) :
    AgreesOn values { k with table := k.table.insert key number }
      { k' with table := k'.table.insert key number } :=
  ⟨agrees.next, congrArg (·.insert key number) agrees.table, agrees.known, agrees.pointers⟩

theorem AgreesOn.recordPointer (agrees : AgreesOn values k k') (pointer : Value) (number : Int) :
    AgreesOn values { k with store := k.store.recordPointer pointer number }
      { k' with store := k'.store.recordPointer pointer number } := by
  refine ⟨agrees.next, agrees.table, agrees.known, ?_⟩
  intro p
  have before := agrees.pointers p
  unfold Store.pointerNumber Store.recordPointer at *
  simp only [Dictionary.find?_insert, before]

theorem AgreesOn.perform (agrees : AgreesOn values k k') (apart : LiteralsApart values)
    {action : Action} (operands : ∀ v ∈ action.resolved, v ∈ values)
    (plain : ∀ v, action.result? = some v → v.literal? = none) :
    (k.perform action).1 = (k'.perform action).1 ∧
      AgreesOn values (k.perform action).2 (k'.perform action).2 := by
  cases action with
  | store value pointer =>
      obtain ⟨number, after⟩ := agrees.resolve apart (operands value (by simp [Action.resolved]))
      simp only [Knowledge.perform, storeThrough, number, true_and]
      exact after.recordPointer pointer _
  | load result pointer =>
      have cell := agrees.pointers pointer
      simp only [Knowledge.perform]
      cases number : k.store.pointerNumber pointer with
      | some n =>
          rw [loadFrom_written number, loadFrom_written (cell ▸ number)]
          exact ⟨rfl, agrees.assign (plain result rfl) n⟩
      | none =>
          rw [loadFrom_unwritten number, loadFrom_unwritten (cell ▸ number), agrees.next]
          exact ⟨rfl, agrees.fresh (plain result rfl)⟩
  | binary opcode result lhs rhs =>
      obtain ⟨left, middle⟩ := agrees.resolve apart (operands lhs (by simp [Action.resolved]))
      obtain ⟨right, after⟩ := middle.resolve apart (operands rhs (by simp [Action.resolved]))
      apply compute_alongside left right rfl rfl agrees.table after.next
      · intro number
        exact after.assign (plain result rfl) number
      · intro key
        exact (after.fresh (plain result rfl)).record key _

end Knowledge

namespace Numbering

/-- Whether a run ends in a fault, and in which, does not hang on what is known. -/
theorem fault_visitAll_eq (column : Int) (n n' : Numbering) (instructions : List Instruction) :
    (visitAll column n instructions).fault = (visitAll column n' instructions).fault := by
  induction instructions generalizing n n' with
  | nil => rfl
  | cons inst rest ih =>
      unfold visitAll visit
      cases inst.action with
      | error fault => rfl
      | ok action =>
          cases action with
          | none => exact ih n n'
          | some action =>
              obtain ⟨tail, line⟩ := Line.exists_tail inst (n.knowledge.perform action).1 column
              obtain ⟨tail', line'⟩ := Line.exists_tail inst (n'.knowledge.perform action).1 column
              simp only [line, line']
              cases Line.padded inst column with
              | error fault => rfl
              | ok text => exact ih _ _

theorem records_eq_of_literalsApart {values : List Value} (apart : LiteralsApart values)
    {column : Int} {instructions : List Instruction}
    (operands : ∀ inst ∈ instructions, ∀ action, inst.action? = some action →
      ∀ v ∈ action.resolved, v ∈ values)
    {n n' : Numbering} (agrees : Knowledge.AgreesOn values n.knowledge n'.knowledge)
    (records : n.records = n'.records) :
    (visitAll column n instructions).numbering.records =
      (visitAll column n' instructions).numbering.records ∧
      (visitAll column n instructions).numbering.knowledge.store.next =
        (visitAll column n' instructions).numbering.knowledge.store.next := by
  induction instructions generalizing n n' with
  | nil => exact ⟨records, agrees.next⟩
  | cons inst rest ih =>
      have first := operands inst (List.mem_cons_self ..)
      have others := fun other member => operands other (List.mem_cons_of_mem inst member)
      unfold visitAll visit
      cases found : inst.action with
      | error fault => exact ⟨records, agrees.next⟩
      | ok action =>
          cases action with
          | none => exact ih others agrees records
          | some action =>
              have isAction : inst.action? = some action := by simp [Instruction.action?, found]
              obtain ⟨decision, after⟩ :=
                agrees.perform apart (first action isAction) (Instruction.action_some found).plain
              simp only [decision]
              cases Line.ofDecision inst (n'.knowledge.perform action).1 column with
              | error fault => exact ⟨records, agrees.next⟩
              | ok line => exact ih others after (by rw [records])

/-- What sharing the numbers of equal literals does to a run. -/
structure LiteralsMerged (fn : Function) (o o' : Outcome) : Prop where
  finished : o.fault = none
  finished' : o'.fault = none
  next : o'.numbering.knowledge.store.next ≤ o.numbering.knowledge.store.next
  redundant : List.Forall₂ (fun r r' : Record => r.redundant = true → r'.redundant = true)
    o.numbering.records o'.numbering.records
  renumbered : ∃ φ : Int → Int, Set.MapsTo φ o.numbering.given o'.numbering.given ∧
    List.Forall₂ (Record.Renumbered φ) o.numbering.records o'.numbering.records ∧
    (LiteralsApart fn.resolved → Set.EqOn φ id o.numbering.given)
  apart : LiteralsApart fn.resolved →
    o'.numbering.records = o.numbering.records ∧
      o'.numbering.knowledge.store.next = o.numbering.knowledge.store.next

theorem eq_of_renumbered {r : Record} {φ : Int → Int} (renumbered : r.Renumbered φ r) {number : Int}
    (mentions : some number ∈ r.numbers) : φ number = number := by
  rcases List.mem_cons.mp mentions with isResult | isOperand
  · rw [Option.some.inj isResult]
    exact renumbered.number.symm
  · have same : r.operands.map id = r.operands.map (Option.map φ) := by
      rw [List.map_id]
      exact renumbered.operands
    have here := List.map_inj_left.mp same (some number) isOperand
    exact (Option.some.inj here).symm

def runApart (settings : Settings) (fn : Function) : Outcome :=
  ofFunction { settings with shareLiterals := false } fn

def runShared (settings : Settings) (fn : Function) : Outcome :=
  ofFunction { settings with shareLiterals := true } fn

theorem runShared_eq_runApart (settings : Settings) {fn : Function}
    (literals : LiteralsApart fn.resolved) :
    (runShared settings fn).numbering.records = (runApart settings fn).numbering.records ∧
      (runShared settings fn).numbering.knowledge.store.next =
        (runApart settings fn).numbering.knowledge.store.next := by
  have operands : ∀ inst ∈ fn.instructions, ∀ action, inst.action? = some action →
      ∀ v ∈ action.resolved, v ∈ fn.resolved := by
    intro inst member action isAction v isOperand
    have inOrder : action ∈ fn.actions := List.mem_filterMap.mpr ⟨inst, member, isAction⟩
    exact List.mem_flatMap.mpr ⟨action, inOrder, isOperand⟩
  have start : Knowledge.AgreesOn fn.resolved (initial true) (initial false) := by
    refine ⟨rfl, rfl, ?_, fun _ => rfl⟩
    intro v _
    unfold Store.known?
    split <;> rfl
  exact records_eq_of_literalsApart literals operands start rfl

/-- Sharing the numbers of equal literals only merges numbers. -/
theorem sharing_literals_merges_numbers (settings : Settings) (fn : Function)
    (finished : (ofFunction settings fn).fault = none) :
    LiteralsMerged fn (runApart settings fn) (runShared settings fn) := by
  have finishedApart : (runApart settings fn).fault = none := by
    rw [← finished]
    exact fault_visitAll_eq settings.column _ _ fn.instructions
  have unexchanged : fn.instructions = fn.instructions.map fun inst => inst.exchange false :=
    (List.map_id' _).symm
  obtain ⟨finishedShared, next, φ, renumbers, -⟩ := exists_renumbers_of_finished
    (show ({ settings with shareLiterals := true } : Settings).column =
      ({ settings with shareLiterals := false } : Settings).column
      from rfl) unexchanged (by simp) Term.isReading_shared Term.readAs_shared_start finishedApart
  refine ⟨finishedApart, finishedShared, next, renumbers.redundant,
    ⟨φ, renumbers.mapsTo, renumbers.records, ?_⟩, runShared_eq_runApart settings⟩
  intro literals number isGiven
  have mentioned := mentioned_of_visitAll finishedApart
  obtain ⟨r, isRecord, mentions⟩ := mentioned number isGiven.1 isGiven.2
  have itself := renumbers.records
  rw [show (ofFunction _ fn).numbering.records =
    _ from (runShared_eq_runApart settings literals).1] at itself
  exact eq_of_renumbered (List.forall₂_same.mp itself r isRecord) mentions

end Numbering

def sumsWithEqualLiterals : Function :=
  let x : Operand := ⟨"i32", ⟨0, .argument "x" "i32"⟩⟩
  let one : Operand := ⟨"i32", ⟨1, .literal 1 "i32"⟩⟩
  let equal : Operand := ⟨"i32", ⟨2, .literal 1 "i32"⟩⟩
  let first : Instruction := { id := 3, opcode := .add, operands := [x, one], name := some "a" }
  let second : Instruction := { id := 4, opcode := .add, operands := [x, equal], name := some "b" }
  let product : Instruction :=
    { id := 5, opcode := .mul, operands := [second.operand, one], name := some "c" }
  { name := "sums", blocks := [⟨"entry", [first, second, product]⟩] }

/-- With the literals shared the second sum is the first one, and what follows it has other
numbers. -/
theorem sumsWithEqualLiterals_merged :
    Numbering.LiteralsMerged sumsWithEqualLiterals (Numbering.runApart {} sumsWithEqualLiterals)
        (Numbering.runShared {} sumsWithEqualLiterals) ∧
      (Numbering.runApart {} sumsWithEqualLiterals).numbering.records.map (·.numbers) =
        [[some 3, some 1, some 2], [some 5, some 1, some 4], [some 6, some 5, some 2]] ∧
      (Numbering.runShared {} sumsWithEqualLiterals).numbering.records.map (·.numbers) =
        [[some 3, some 1, some 2], [some 3, some 1, some 2], [some 4, some 3, some 2]] :=
  ⟨Numbering.sharing_literals_merges_numbers {} sumsWithEqualLiterals (by decide), by decide,
    by decide⟩

end ValueNumbering

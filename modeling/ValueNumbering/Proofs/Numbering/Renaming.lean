import ValueNumbering.Proofs.Numbering.History
import ValueNumbering.Proofs.Numbering.Operands

/-!
Functions that differ in the identity of their values only. Where partners have partners as
operands, numbering makes the same decisions and leaves the same lines, whatever the values are.
-/

namespace ValueNumbering

/-- A partnership of values: nobody has two partners, and a literal has an equal one. -/
structure Pairing (ρ : Value → Value → Prop) : Prop where
  left : ∀ {v v' w}, ρ v w → ρ v' w → v = v'
  right : ∀ {v w w'}, ρ v w → ρ v w' → w = w'
  literal : ∀ {v w}, ρ v w → v.literal? = w.literal?

inductive SameOperand (shareLiterals : Bool) (ρ : Value → Value → Prop) (v w : Value) : Prop
  | partners (pair : ρ v w)
  | literals {c : Int} (left : sharedLiteral? shareLiterals v = some c)
      (right : sharedLiteral? shareLiterals w = some c)

/-- Neither value has a partner. -/
def Single (ρ : Value → Value → Prop) (v w : Value) : Prop := (∀ w', ¬ ρ v w') ∧ ∀ v', ¬ ρ v' w

def Untouched (pointer : Value) (actions : List Action) : Prop :=
  ∀ value, .store value pointer ∉ actions

/-- Two actions alike after others. Pointers without partners are only written, or only read. -/
inductive Action.Alike (shareLiterals : Bool) (ρ : Value → Value → Prop)
    (before before' : List Action) :
    Action → Action → Prop
  | store {v w p q : Value} (value : SameOperand shareLiterals ρ v w)
      (pointer : ρ p q ∨ Single ρ p q) :
      Alike shareLiterals ρ before before' (.store v p) (.store w q)
  | load {r s p q : Value} (result : ρ r s)
      (pointer : ρ p q ∨ Untouched p before ∧ Untouched q before') :
      Alike shareLiterals ρ before before' (.load r p) (.load s q)
  | binary {opcode : Opcode} {r s v w v' w' : Value} (result : ρ r s)
      (lhs : SameOperand shareLiterals ρ v w)
      (rhs : SameOperand shareLiterals ρ v' w') :
      Alike shareLiterals ρ before before' (.binary opcode r v v') (.binary opcode s w w')

structure Instruction.Alike (shareLiterals : Bool) (ρ : Value → Value → Prop)
    (before before' : List Instruction) (inst inst' : Instruction) : Prop where
  opcode : inst.opcode = inst'.opcode
  written : inst.written = inst'.written
  action : ∃ action action', inst.action = .ok action ∧ inst'.action = .ok action' ∧
    Option.Rel (Action.Alike shareLiterals ρ (before.filterMap (·.action?))
      (before'.filterMap (·.action?))) action action'

/-- What the pointers of two stores or loads must be for the instructions to be alike. -/
structure PointersAlike (ρ : Value → Value → Prop) (before before' : List Instruction)
    (inst inst' : Instruction) : Prop where
  store : inst.opcode = .store → ∀ x y, inst.operands.getLast? = some x →
    inst'.operands.getLast? = some y →
    ρ x.value y.value ∨ Single ρ x.value y.value
  load : inst.opcode = .load → ∀ x y, inst.operands.getLast? = some x →
    inst'.operands.getLast? = some y →
    ρ x.value y.value ∨
      Untouched x.value (before.filterMap (·.action?)) ∧
        Untouched y.value (before'.filterMap (·.action?))

theorem Instruction.Alike.of_unmodelled {shareLiterals : Bool} {ρ : Value → Value → Prop}
    {before before' : List Instruction} {inst inst' : Instruction}
    (opcode : inst.opcode = inst'.opcode) (written : inst.written = inst'.written)
    (unmodelled : inst.action = .ok none) (unmodelled' : inst'.action = .ok none) :
    inst.Alike shareLiterals ρ before before' inst' :=
  ⟨opcode, written, none, none, unmodelled, unmodelled', .none⟩

theorem Instruction.Alike.of_operands {shareLiterals : Bool} {ρ : Value → Value → Prop}
    {before before' : List Instruction} {inst inst' : Instruction}
    (opcode : inst.opcode = inst'.opcode) (written : inst.written = inst'.written)
    (count : inst.operands.length = inst.opcode.operandCount) (result : ρ inst.result inst'.result)
    (operands : List.Forall₂ (fun x y => SameOperand shareLiterals ρ x.value y.value)
      inst.operands inst'.operands)
    (pointers : PointersAlike ρ before before' inst inst') :
    inst.Alike shareLiterals ρ before before' inst' := by
  by_cases isStore : inst.opcode = .store
  · rw [isStore, Opcode.operandCount] at count
    obtain ⟨x, p, both⟩ := List.length_eq_two.mp count
    obtain ⟨y, q, both', value, -⟩ := forall₂_pair (both ▸ operands)
    have pointer := pointers.store isStore p q (by simp [both]) (by simp [both'])
    refine ⟨opcode, written, some (.store x.value p.value), some (.store y.value q.value), ?_, ?_,
      .some (.store value pointer)⟩
    · simp [Instruction.action, isStore, both, valueOperand, pointerOperand, bind, Except.bind,
        pure, Except.pure]
    · simp [Instruction.action, ← opcode, isStore, both', valueOperand, pointerOperand, bind,
        Except.bind, pure, Except.pure]
  by_cases isLoad : inst.opcode = .load
  · rw [isLoad, Opcode.operandCount] at count
    obtain ⟨p, only⟩ := List.length_eq_one_iff.mp count
    obtain ⟨q, only', -⟩ := forall₂_singleton (only ▸ operands)
    have pointer := pointers.load isLoad p q (by simp [only]) (by simp [only'])
    refine ⟨opcode, written, some (.load inst.result p.value),
      some (.load inst'.result q.value), ?_, ?_, .some (.load result pointer)⟩
    · simp [Instruction.action, isLoad, only, pointerOperand, bind, Except.bind, pure, Except.pure]
    · simp [Instruction.action, ← opcode, isLoad, only', pointerOperand, bind, Except.bind, pure,
        Except.pure]
  cases binary : inst.opcode.isBinary with
  | true =>
      have two : inst.operands.length = 2 := by
        cases opcode : inst.opcode <;> simp_all [Opcode.operandCount, Opcode.isBinary]
      obtain ⟨x, x', both⟩ := List.length_eq_two.mp two
      obtain ⟨y, y', both', lhs, rhs⟩ := forall₂_pair (both ▸ operands)
      refine ⟨opcode, written, some (.binary inst.opcode inst.result x.value x'.value),
        some (.binary inst.opcode inst'.result y.value y'.value), ?_, ?_,
          .some (.binary result lhs rhs)⟩
      · simp [Instruction.action, binary, twoOperands, both, bind, Except.bind, pure, Except.pure]
      · simp [Instruction.action, ← opcode, binary, twoOperands, both', bind, Except.bind, pure,
          Except.pure]
  | false =>
      refine .of_unmodelled opcode written ?_ ?_
      · simp [Instruction.action, binary]
      · simp [Instruction.action, ← opcode, binary]

inductive Renamed (shareLiterals : Bool) (ρ : Value → Value → Prop) :
    List Instruction → List Instruction → Prop
  | nil : Renamed shareLiterals ρ [] []
  | concat {before before' : List Instruction} {inst inst' : Instruction}
      (earlier : Renamed shareLiterals ρ before before')
      (last : inst.Alike shareLiterals ρ before before' inst') :
      Renamed shareLiterals ρ (before ++ [inst]) (before' ++ [inst'])

theorem Renamed.of_getElem? {shareLiterals : Bool} {ρ : Value → Value → Prop}
    {xs ys : List Instruction} (length : xs.length = ys.length)
    (alike : ∀ i (x y : Instruction), xs[i]? = some x → ys[i]? = some y →
      x.Alike shareLiterals ρ (xs.take i) (ys.take i) y) :
    Renamed shareLiterals ρ xs ys := by
  have prefixes : ∀ n ≤ xs.length, Renamed shareLiterals ρ (xs.take n) (ys.take n) := by
    intro n
    induction n with
    | zero => simpa using .nil
    | succ n ih =>
        intro inside
        have here : n < xs.length := by omega
        have here' : n < ys.length := by omega
        rw [List.take_succ_eq_append_getElem here, List.take_succ_eq_append_getElem here']
        exact .concat (ih (by omega)) (alike n _ _ (by simp [here]) (by simp [here']))
  have whole := prefixes xs.length (Nat.le_refl _)
  rwa [List.take_length, length, List.take_length] at whole

structure Knowledge.Agrees (ρ : Value → Value → Prop) (k k' : Knowledge) : Prop where
  shareLiterals : k.store.shareLiterals = k'.store.shareLiterals
  next : k.store.next = k'.store.next
  literals : k.store.literals = k'.store.literals
  table : k.table = k'.table
  values : ∀ {v w}, ρ v w → k.store.values.find? v = k'.store.values.find? w
  pointers : ∀ {p q}, ρ p q → k.store.pointerNumber p = k'.store.pointerNumber q

namespace Knowledge

variable {ρ : Value → Value → Prop} {k k' : Knowledge} {v w p q : Value}

theorem Agrees.initial (ρ : Value → Value → Prop) (shareLiterals : Bool) :
    Agrees ρ (Numbering.initial shareLiterals) (Numbering.initial shareLiterals) :=
  ⟨rfl, rfl, rfl, rfl, fun _ => rfl, fun _ => rfl⟩

theorem Agrees.find?_insert (agrees : Agrees ρ k k') (pairing : Pairing ρ) (pair : ρ v w)
    (number : Int) {v' w' : Value} (pair' : ρ v' w') :
    (k.store.values.insert v number).find? v' = (k'.store.values.insert w number).find? w' := by
  rw [Dictionary.find?_insert, Dictionary.find?_insert]
  have both : v = v' ↔ w = w' := by
    constructor
    · rintro rfl
      exact pairing.right pair pair'
    · rintro rfl
      exact pairing.left pair pair'
  by_cases same : v = v'
  · simp [same, both.mp same]
  · simp [same, mt both.mpr same, agrees.values pair']

theorem Agrees.assign (agrees : Agrees ρ k k') (pairing : Pairing ρ) (pair : ρ v w) (number : Int) :
    Agrees ρ { k with store := k.store.assign v number }
      { k' with store := k'.store.assign w number } :=
  ⟨agrees.shareLiterals, agrees.next, agrees.literals, agrees.table,
    agrees.find?_insert pairing pair number, agrees.pointers⟩

theorem Agrees.fresh (agrees : Agrees ρ k k') (pairing : Pairing ρ) (pair : ρ v w) :
    Agrees ρ { k with store := (k.store.fresh v).2 } { k' with store := (k'.store.fresh w).2 } := by
  refine ⟨agrees.shareLiterals, ?_, agrees.literals, agrees.table, ?_, agrees.pointers⟩
  · exact congrArg (· + 1) agrees.next
  · intro v' w' pair'
    simp only [Store.fresh, agrees.next]
    exact agrees.find?_insert pairing pair _ pair'

theorem Agrees.record (agrees : Agrees ρ k k') (key : Expression) (number : Int) :
    Agrees ρ { k with table := k.table.insert key number }
      { k' with table := k'.table.insert key number } :=
  ⟨agrees.shareLiterals, agrees.next, agrees.literals, congrArg (·.insert key number) agrees.table,
    agrees.values, agrees.pointers⟩

theorem Agrees.resolve (agrees : Agrees ρ k k') (pairing : Pairing ρ)
    (same : SameOperand k.store.shareLiterals ρ v w) :
    (k.store.resolve v).1 = (k'.store.resolve w).1 ∧
      Agrees ρ { k with store := (k.store.resolve v).2 }
        { k' with store := (k'.store.resolve w).2 } := by
  have shared : sharedLiteral? k.store.shareLiterals v =
      sharedLiteral? k'.store.shareLiterals w := by
    rw [← agrees.shareLiterals]
    cases same with
    | partners pair => simp [sharedLiteral?, pairing.literal pair]
    | literals left right => rw [left, right]
  have known : k.store.known? v = k'.store.known? w := by
    unfold Store.known?
    rw [shared]
    cases literal : sharedLiteral? k'.store.shareLiterals w with
    | some c => simp [agrees.literals]
    | none =>
        cases same with
        | partners pair => exact agrees.values pair
        | literals left right => simp [left, literal] at shared
  cases number : k.store.known? v with
  | some n =>
      rw [Store.resolve_of_known number, Store.resolve_of_known (known ▸ number)]
      exact ⟨rfl, agrees⟩
  | none =>
      rw [Store.resolve_of_unknown number, Store.resolve_of_unknown (known ▸ number), shared]
      refine ⟨agrees.next, ?_⟩
      cases literal : sharedLiteral? k'.store.shareLiterals w with
      | some c =>
          refine ⟨agrees.shareLiterals, ?_, ?_, agrees.table, agrees.values, agrees.pointers⟩
          · simp [agrees.next]
          · simp [agrees.next, agrees.literals]
      | none =>
          cases same with
          | partners pair =>
              exact agrees.fresh pairing pair
          | literals left right => simp [left, literal] at shared

theorem Agrees.recordPointer (agrees : Agrees ρ k k') (pairing : Pairing ρ)
    (pointer : ρ p q ∨ Single ρ p q) (number : Int) :
    Agrees ρ { k with store := k.store.recordPointer p number }
      { k' with store := k'.store.recordPointer q number } := by
  refine ⟨agrees.shareLiterals, agrees.next, agrees.literals, agrees.table, agrees.values, ?_⟩
  intro p' q' pair'
  have both : p = p' ↔ q = q' := by
    rcases pointer with pair | single
    · constructor
      · rintro rfl
        exact pairing.right pair pair'
      · rintro rfl
        exact pairing.left pair pair'
    · constructor
      · rintro rfl
        exact absurd pair' (single.1 _)
      · rintro rfl
        exact absurd pair' (single.2 _)
  have before := agrees.pointers pair'
  simp only [Store.pointerNumber, Store.recordPointer, Dictionary.find?_insert] at before ⊢
  by_cases same : p = p'
  · simp [same, both.mp same]
  · simp [same, mt both.mpr same, before]

def Blank (k : Knowledge) (actions : List Action) : Prop :=
  ∀ p, Untouched p actions → k.store.pointerNumber p = none

theorem Blank.perform {actions : List Action} (blank : k.Blank actions) (action : Action) :
    (k.perform action).2.Blank (actions ++ [action]) := by
  intro p untouched
  have before : k.store.pointerNumber p = none :=
    blank p fun value member => untouched value (List.mem_append_left _ member)
  refine (pointerNumber_perform fun value isStore => ?_).trans before
  exact untouched value (List.mem_append_right _ (List.mem_singleton.mpr isStore.symm))

theorem compute_alongside {R : Knowledge → Knowledge → Prop} {r s v w v' w' : Value}
    {second second' : Store} (left : (k.store.resolve v).1 = (k'.store.resolve w).1)
    (right : ((k.store.resolve v).2.resolve v').1 = ((k'.store.resolve w).2.resolve w').1)
    (after : ((k.store.resolve v).2.resolve v').2 = second)
    (after' : ((k'.store.resolve w).2.resolve w').2 = second') (table : k.table = k'.table)
    (next : second.next = second'.next)
    (found : ∀ number, R ⟨second.assign r number, k.table⟩ ⟨second'.assign s number, k'.table⟩)
    (missing : ∀ key, R ⟨(second.fresh r).2, k.table.insert key second.next⟩
      ⟨(second'.fresh s).2, k'.table.insert key second.next⟩)
    (opcode : Opcode) :
    (k.compute opcode r v v').1 = (k'.compute opcode s w w').1 ∧
      R (k.compute opcode r v v').2 (k'.compute opcode s w w').2 := by
  let leftNumber := (k.store.resolve v).1
  let rightNumber := ((k.store.resolve v).2.resolve v').1
  have resolved : (k.store.resolve v).2.resolve v' = (rightNumber, second) := by rw [← after]
  have partner : k'.store.resolve w = (leftNumber, (k'.store.resolve w).2) := Prod.ext left.symm rfl
  have partner' : (k'.store.resolve w).2.resolve w' = (rightNumber, second') :=
    Prod.ext right.symm after'
  cases entry : k.table.find? (Expression.canonical opcode leftNumber rightNumber) with
  | some number =>
      rw [compute_known rfl resolved entry, compute_known partner partner' (table ▸ entry)]
      exact ⟨rfl, found number⟩
  | none =>
      rw [compute_new rfl resolved entry, compute_new partner partner' (table ▸ entry), ← next]
      exact ⟨rfl, missing _⟩

theorem Agrees.perform (agrees : Agrees ρ k k') (pairing : Pairing ρ) {before before' : List Action}
    (blank : k.Blank before) (blank' : k'.Blank before') {a b : Action}
    (alike : Action.Alike k.store.shareLiterals ρ before before' a b) :
    (k.perform a).1 = (k'.perform b).1 ∧ Agrees ρ (k.perform a).2 (k'.perform b).2 := by
  cases alike with
  | store value pointer =>
      obtain ⟨number, after⟩ := agrees.resolve pairing value
      simp only [Knowledge.perform, storeThrough, number, true_and]
      exact after.recordPointer pairing pointer _
  | @load r s p q result pointer =>
      have cell : k.store.pointerNumber p = k'.store.pointerNumber q := by
        rcases pointer with pair | ⟨untouched, untouched'⟩
        · exact agrees.pointers pair
        · rw [blank p untouched, blank' q untouched']
      simp only [Knowledge.perform]
      cases number : k.store.pointerNumber p with
      | some n =>
          rw [loadFrom_written number, loadFrom_written (cell ▸ number)]
          exact ⟨rfl, agrees.assign pairing result n⟩
      | none =>
          rw [loadFrom_unwritten number, loadFrom_unwritten (cell ▸ number), agrees.next]
          exact ⟨rfl, agrees.fresh pairing result⟩
  | @binary opcode r s v w v' w' result lhs rhs =>
      obtain ⟨left, middle⟩ := agrees.resolve pairing lhs
      obtain ⟨right, after⟩ := middle.resolve pairing (by simpa using rhs)
      apply compute_alongside left right rfl rfl agrees.table after.next
      · intro number
        exact after.assign pairing result number
      · intro key
        exact (after.fresh pairing result).record key _

end Knowledge

theorem Line.ofDecision_congr {inst inst' : Instruction} (opcode : inst.opcode = inst'.opcode)
    (written : inst.written = inst'.written) (decision : Decision) (column : Int) :
    Line.ofDecision inst decision column = Line.ofDecision inst' decision column := by
  simp only [Line.ofDecision, Line.store, Line.load, Line.binary, Line.padded, opcode, written]

namespace Numbering

theorem visitAll_concat (column : Int) (n : Numbering) (instructions : List Instruction)
    (inst : Instruction) :
    visitAll column n (instructions ++ [inst]) =
      match (visitAll column n instructions).fault with
      | some _ => visitAll column n instructions
      | none => visitAll column (visitAll column n instructions).numbering [inst] := by
  induction instructions generalizing n with
  | nil => rfl
  | cons first rest ih =>
      rw [List.cons_append, visitAll, visitAll]
      split
      · rfl
      · exact ih _

structure Outcome.Agrees (ρ : Value → Value → Prop) (o o' : Outcome) : Prop where
  fault : o.fault = o'.fault
  decisions : o.numbering.records.map (·.toDecision) = o'.numbering.records.map (·.toDecision)
  lines : o.numbering.lines = o'.numbering.lines
  knowledge : Knowledge.Agrees ρ o.numbering.knowledge o'.numbering.knowledge

variable {ρ : Value → Value → Prop} {column : Int} {n n' : Numbering}

theorem Outcome.Agrees.concat {inst inst' : Instruction} {before before' : List Instruction}
    (agrees : Outcome.Agrees ρ ⟨n, none⟩ ⟨n', none⟩) (pairing : Pairing ρ)
    (blank : n.knowledge.Blank (before.filterMap (·.action?)))
    (blank' : n'.knowledge.Blank (before'.filterMap (·.action?)))
    (alike : inst.Alike n.knowledge.store.shareLiterals ρ before before' inst') :
    Outcome.Agrees ρ (visitAll column n [inst]) (visitAll column n' [inst']) := by
  obtain ⟨action, action', found, found', related⟩ := alike.action
  cases related with
  | none => simpa [visitAll, visit, found, found'] using agrees
  | @some first second same =>
      obtain ⟨decision, after⟩ := agrees.knowledge.perform pairing blank blank' same
      have line := Line.ofDecision_congr alike.opcode alike.written
        (n.knowledge.perform first).1 column
      simp only [visitAll, visit, found, found']
      rw [← decision, ← line]
      cases Line.ofDecision inst _ column with
      | error fault => exact ⟨rfl, agrees.decisions, agrees.lines, agrees.knowledge⟩
      | ok text =>
          refine ⟨rfl, ?_, ?_, after⟩
          · have decisions := agrees.decisions
            simp only [List.map_append, decisions, List.map_cons, List.map_nil]
          · have lines := agrees.lines
            simp only [Numbering.lines] at lines
            simp only [Numbering.lines, List.map_append, lines, List.map_cons, List.map_nil]

theorem blank_of_visitAll {shareLiterals : Bool} {instructions : List Instruction}
    (finished : (visitAll column ⟨initial shareLiterals, []⟩ instructions).fault = none) :
    (visitAll column ⟨initial shareLiterals, []⟩ instructions).numbering.knowledge.Blank
      (instructions.filterMap (·.action?)) := by
  have start : (initial shareLiterals).Blank (([] : List Instruction).filterMap (·.action?)) :=
    fun _ _ => rfl
  refine invariant_of_visitAll (fun before n => n.knowledge.Blank (before.filterMap (·.action?))) ?_
    [] start finished
  intro before n inst next blank visited
  cases visited with
  | skipped unmodelled => simpa [Instruction.action?, unmodelled] using blank
  | recorded found shown => simpa [Instruction.action?, found] using blank.perform _

theorem shareLiterals_of_visitAll {shareLiterals : Bool} {instructions : List Instruction}
    (finished : (visitAll column ⟨initial shareLiterals, []⟩ instructions).fault = none) :
    (visitAll column ⟨initial shareLiterals, []⟩
      instructions).numbering.knowledge.store.shareLiterals = shareLiterals := by
  refine invariant_of_visitAll (fun _ n => n.knowledge.store.shareLiterals = shareLiterals) ?_ []
    rfl finished
  intro _ n inst next same visited
  cases visited with
  | skipped unmodelled => exact same
  | recorded found shown => exact (n.knowledge.perform_shareLiterals _).trans same

/-- Instructions alike one by one are numbered alike. -/
theorem agrees_of_renamed {shareLiterals : Bool} (pairing : Pairing ρ)
    {instructions instructions' : List Instruction}
    (renamed : Renamed shareLiterals ρ instructions instructions') (column : Int) :
    Outcome.Agrees ρ (visitAll column ⟨initial shareLiterals, []⟩ instructions)
      (visitAll column ⟨initial shareLiterals, []⟩ instructions') := by
  induction renamed with
  | nil => exact ⟨rfl, rfl, rfl, Knowledge.Agrees.initial ρ shareLiterals⟩
  | concat earlier last ih =>
      rw [visitAll_concat, visitAll_concat, ← ih.fault]
      split
      · exact ih
      · next finished =>
          have finished' := ih.fault ▸ finished
          have sharing := shareLiterals_of_visitAll finished
          refine Outcome.Agrees.concat ⟨rfl, ih.decisions, ih.lines, ih.knowledge⟩ pairing
            (blank_of_visitAll finished)
            (blank_of_visitAll finished') ?_
          rw [sharing]
          exact last

/-- Two runs with the same decisions and the same lines, to the same end. -/
structure Outcome.SameReport (o o' : Outcome) : Prop where
  fault : o.fault = o'.fault
  decisions : o.numbering.records.map (·.toDecision) = o'.numbering.records.map (·.toDecision)
  lines : o.numbering.lines = o'.numbering.lines

theorem Outcome.Agrees.sameReport {o o' : Outcome} (agrees : Outcome.Agrees ρ o o') :
    Outcome.SameReport o o' :=
  ⟨agrees.fault, agrees.decisions, agrees.lines⟩

end Numbering

end ValueNumbering

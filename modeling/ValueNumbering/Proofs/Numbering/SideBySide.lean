import Mathlib.Data.Finset.Card
import Mathlib.Data.Int.Interval
import Mathlib.Data.Set.Function
import ValueNumbering.Proofs.Numbering.Allocation
import ValueNumbering.Proofs.Numbering.ReadAs

/-!
Two runs side by side, the terms of the first read as those of the second. Every number of the first
has one counterpart in the second, and every number of the second is one.
-/

namespace ValueNumbering

theorem Meets.exchange {known : List Term} {d : Decision} {m : Meaning} (meets : Meets known d m)
    (exchanged : Bool) :
    Meets known (d.exchange exchanged) (m.exchange exchanged) := by
  cases meets with
  | cons number operands => exact .cons number (forall₂_reversedIf exchanged operands)

/-- A number and its counterpart: they stand for terms of which the first is read as the second. -/
def Linked (T : Term → Term) (known known' : List Term) (n n' : Int) : Prop :=
  ∃ t t', Numbered known n t ∧ Numbered known' n' t' ∧ Term.ReadAs T t t'

section Linked

variable {T : Term → Term} {known known' : List Term}

theorem Linked.append {n n' : Int} (linked : Linked T known known' n n') (more more' : List Term) :
    Linked T (known ++ more) (known' ++ more') n n' := by
  obtain ⟨t, t', numbered, numbered', read⟩ := linked
  exact ⟨t, t', numbered.append more, numbered'.append more', read⟩

theorem linked_of_numbered {numbers numbers' : List (Option Int)}
    {terms terms' : List (Option Term)}
    (numbered : List.Forall₂ (Option.Rel (Numbered known)) numbers terms)
    (numbered' : List.Forall₂ (Option.Rel (Numbered known')) numbers' terms')
    (read : List.Forall₂ (Option.Rel (Term.ReadAs T)) terms terms') :
    List.Forall₂ (Option.Rel (Linked T known known')) numbers numbers' := by
  induction read generalizing numbers numbers' with
  | nil =>
      cases numbered
      cases numbered'
      exact .nil
  | cons here _ ih =>
      cases numbered with
      | cons first rest =>
          cases numbered' with
          | cons first' rest' =>
              refine .cons ?_ (ih rest rest')
              cases here with
              | none =>
                  cases first
                  cases first'
                  exact .none
              | some read =>
                  cases first with
                  | some number =>
                      cases first' with
                      | some number' => exact .some ⟨_, _, number, number', read⟩

theorem Linked.right_unique (reading : Term.IsReading T) (distinct' : Distinct known')
    {n m m' : Int} (first : Linked T known known' n m) (second : Linked T known known' n m') :
    m = m' := by
  obtain ⟨t, t', numbered, numbered', read⟩ := first
  obtain ⟨u, u', other, other', read'⟩ := second
  have same := reading.same (numbered.same_term other)
  exact numbered'.same_number distinct' other' (read.symm.trans (same.trans read'))

theorem Linked.left_unique (faithful : Term.Faithful T) (distinct : Distinct known) {n n' m : Int}
    (first : Linked T known known' n m) (second : Linked T known known' n' m) : n = n' := by
  obtain ⟨t, t', numbered, numbered', read⟩ := first
  obtain ⟨u, u', other, other', read'⟩ := second
  have same := faithful (read.trans ((numbered'.same_term other').trans read'.symm))
  exact numbered.same_number distinct other same

theorem exists_renumbering (reading : Term.IsReading T) (distinct' : Distinct known') :
    ∃ φ : Int → Int, ∀ n n', Linked T known known' n n' → n' = φ n := by
  have each : ∀ n, ∃ m, ∀ n', Linked T known known' n n' → n' = m := by
    intro n
    by_cases some : ∃ m, Linked T known known' n m
    · obtain ⟨m, linked⟩ := some
      exact ⟨m, fun n' other => other.right_unique reading distinct' linked⟩
    · exact ⟨0, fun n' other => absurd ⟨n', other⟩ some⟩
  exact Classical.axiomOfChoice each

theorem map_of_linked {φ : Int → Int} (renumbers : ∀ n n', Linked T known known' n n' → n' = φ n)
    {numbers numbers' : List (Option Int)}
    (linked : List.Forall₂ (Option.Rel (Linked T known known')) numbers numbers') :
    numbers' = numbers.map (Option.map φ) := by
  induction linked with
  | nil => rfl
  | cons here _ ih =>
      rw [List.map_cons, ← ih]
      cases here with
      | none => rfl
      | some link => rw [renumbers _ _ link, Option.map_some]

theorem rel_linked_append {n n' : Option Int} (linked : Option.Rel (Linked T known known') n n')
    (more more' : List Term) :
    Option.Rel (Linked T (known ++ more) (known' ++ more')) n n' := by
  cases linked with
  | some link => exact .some (link.append more more')
  | none => exact .none

end Linked

structure Decision.Beside (T : Term → Term) (known known' : List Term) (d d' : Decision) :
    Prop where
  numbers : List.Forall₂ (Option.Rel (Linked T known known')) d.numbers d'.numbers
  redundant : d.redundant = true → d'.redundant = true
  faithful : Term.Faithful T → d'.redundant = true → d.redundant = true

theorem Decision.Beside.append {T : Term → Term} {known known' : List Term} {d d' : Decision}
    (beside : Beside T known known' d d') (more more' : List Term) :
    Beside T (known ++ more) (known' ++ more') d d' :=
  ⟨beside.numbers.imp fun _ _ linked => rel_linked_append linked more more', beside.redundant,
    beside.faithful⟩

/-- Two states of knowledge side by side: each stands for terms, and those of the first are read as
those of the second. -/
def Knowledge.Beside (T : Term → Term) (known known' : List Term) (k k' : Knowledge) : Prop :=
  ∃ computed computed' s s', Represents known computed s k.store k.table ∧
    Represents known' computed' s' k'.store k'.table ∧
    s.ReadAs T s' ∧ List.Forall₂ (Term.ReadAs T) computed computed'

section Knowledge

variable {T : Term → Term} {known known' : List Term} {k k' : Knowledge}

theorem Action.Exchanged.isBinary_eq {exchanged : Bool} {action action' : Action}
    (counterpart : Action.Exchanged exchanged action action') :
    action.isBinary = action'.isBinary := by
  cases counterpart <;> rfl

theorem Action.Exchanged.computes {exchanged : Bool} {action action' : Action}
    (counterpart : Action.Exchanged exchanged action action') {m m' : Meaning}
    (read : Term.ReadAs T m.term m'.term) :
    List.Forall₂ (Term.ReadAs T) (action.computes m) (action'.computes m') := by
  cases counterpart with
  | kept =>
      cases action with
      | store => exact .nil
      | load => exact .nil
      | binary => exact .cons read .nil
  | swapped => exact .cons read .nil

theorem Knowledge.Beside.perform (beside : Knowledge.Beside T known known' k k')
    (reading : Term.IsReading T) {exchanged : Bool} {action action' : Action}
    (counterpart : Action.Exchanged exchanged action action')
    (plain : ∀ v, action.result? = some v → v.literal? = none) :
    ∃ more more', Knowledge.Beside T (known ++ more) (known' ++ more') (k.perform action).2
      (k'.perform action').2 ∧
      Decision.Beside T (known ++ more) (known' ++ more') (k.perform action).1
        ((k'.perform action').1.exchange exchanged) := by
  obtain ⟨computed, computed', s, s', represents, represents', reads, read⟩ := beside
  obtain ⟨more, after, meets, redundant⟩ := represents.perform action
  obtain ⟨more', after', meets', redundant'⟩ := represents'.perform action'
  obtain ⟨terms, readsAfter⟩ := reads.perform_exchanged reading counterpart plain
  have term : Term.ReadAs T (s.perform action).1.term (s'.perform action').1.term := by
    cases terms with
    | cons first _ =>
        cases first with
        | some here => exact here
  have computes := counterpart.computes term
  refine ⟨more, more', ⟨_, _, _, _, after, after', readsAfter, List.rel_append read computes⟩,
    ?_, ?_, ?_⟩
  · exact linked_of_numbered meets (meets'.exchange exchanged) terms
  · intro again
    obtain ⟨binary, before⟩ := redundant.mp again
    apply redundant'.mpr
    exact ⟨counterpart.isBinary_eq ▸ binary, reading.exists_same read term before⟩
  · intro faithful again
    obtain ⟨binary, before⟩ := redundant'.mp again
    apply redundant.mpr
    exact ⟨counterpart.isBinary_eq ▸ binary, faithful.exists_same read term before⟩

end Knowledge

namespace Line

theorem exists_tail (inst : Instruction) (decision : Decision) (column : Int) :
    ∃ tail, ofDecision inst decision column = (padded inst column).map (· ++ tail) := by
  unfold ofDecision
  split
  · exact ⟨storeTail decision.number decision.number, rfl⟩
  · exact ⟨loadTail decision.number _, rfl⟩
  · exact ⟨binaryTail inst.opcode decision.number _ _ decision.redundant, rfl⟩
  · refine ⟨"", ?_⟩
    cases padded inst column <;> simp [Except.map]

theorem exists_line_iff (inst : Instruction) (decision : Decision) (column : Int) :
    (∃ line, ofDecision inst decision column = .ok line) ↔
      ∃ text, padded inst column = .ok text := by
  obtain ⟨tail, shown⟩ := exists_tail inst decision column
  rw [shown]
  cases padded inst column <;> simp [Except.map]

theorem exists_padded_exchange {inst : Instruction} {action : Action} {exchanged : Bool}
    (commutes : exchanged = true → inst.opcode.isCommutative = true)
    (found : inst.action = .ok (some action)) {column : Int} {text : String}
    (shown : padded inst column = .ok text) :
    ∃ text', padded (inst.exchange exchanged) column = .ok text' := by
  cases exchanged with
  | false => exact ⟨text, shown⟩
  | true =>
      have commutes := commutes rfl
      obtain ⟨lhs, rhs, both⟩ := Instruction.exists_operands commutes found
      have written : ∃ line, (inst.exchange true).written = .ok line := by
        cases kept : inst.text with
        | some line => exact ⟨line, by simp [Instruction.written, Instruction.exchange, kept]⟩
        | none =>
            have reversed : (inst.exchange true).twoOperands = .ok (rhs, lhs) := by
              simp [Instruction.twoOperands, Instruction.exchange, reversedIf, both]
            unfold Instruction.written Instruction.built
            cases named : inst.opcode <;>
              simp_all [Opcode.isCommutative, Opcode.isBinary, Instruction.exchange, bind,
                Except.bind, pure, Except.pure]
      obtain ⟨line, written⟩ := written
      unfold padded at shown ⊢
      rw [written]
      split at shown
      · cases shown
      · split at shown
        · next inRange => exact ⟨_, if_pos inRange⟩
        · cases shown

end Line

structure Record.Beside (T : Term → Term) (exchanges : Instruction → Bool)
    (known known' : List Term) (r r' : Record) : Prop where
  instruction : r'.instruction = r.instruction.exchange (exchanges r.instruction)
  decision : Decision.Beside T known known' r.toDecision
    (r'.toDecision.exchange (exchanges r.instruction))

theorem Record.Beside.append {T : Term → Term} {exchanges : Instruction → Bool}
    {known known' : List Term} {r r' : Record} (beside : Beside T exchanges known known' r r')
    (more more' : List Term) :
    Beside T exchanges (known ++ more) (known' ++ more') r r' :=
  ⟨beside.instruction, beside.decision.append more more'⟩

namespace Numbering

structure Beside (T : Term → Term) (exchanges : Instruction → Bool) (known known' : List Term)
    (n n' : Numbering) : Prop where
  knowledge : Knowledge.Beside T known known' n.knowledge n'.knowledge
  records : List.Forall₂ (Record.Beside T exchanges known known') n.records n'.records

variable {T : Term → Term} {exchanges : Instruction → Bool} {known known' : List Term}
    {n n' : Numbering} {column : Int}

/-- A visit that the first run gets through the second one gets through as well, and they stay side
by side. -/
theorem Beside.visit (beside : Beside T exchanges known known' n n') (reading : Term.IsReading T)
    {inst : Instruction} (commutes : exchanges inst = true → inst.opcode.isCommutative = true)
    {next : Numbering} (visited : Visited column n inst next) :
    ∃ next' more more', Numbering.visit column n' (inst.exchange (exchanges inst)) = .ok next' ∧
      Beside T exchanges (known ++ more) (known' ++ more') next next' := by
  cases visited with
  | skipped unmodelled =>
      have unmodelled' := Instruction.exchange_unmodelled commutes unmodelled
      refine ⟨n', [], [], ?_, ?_⟩
      · rw [Numbering.visit, unmodelled']
      · rwa [List.append_nil, List.append_nil]
  | @recorded action line found shown =>
      obtain ⟨action', found', counterpart⟩ := Instruction.exchange_action commutes found
      have plain := (Instruction.action_some found).plain
      obtain ⟨more, more', knowledge, decision⟩ :=
        beside.knowledge.perform reading counterpart plain
      obtain ⟨text, padded⟩ := (Line.exists_line_iff _ _ column).mp ⟨line, shown⟩
      have padded' := Line.exists_padded_exchange commutes found padded
      obtain ⟨line', shown'⟩ :=
        (Line.exists_line_iff _ (n'.knowledge.perform action').1 column).mpr padded'
      have visited' : Numbering.visit column n' (inst.exchange (exchanges inst)) =
          .ok ⟨(n'.knowledge.perform action').2,
            n'.records ++ [{ (n'.knowledge.perform action').1 with
              instruction := inst.exchange (exchanges inst), line := line' }]⟩ := by
        simp only [Numbering.visit, found', shown']
      have earlier := beside.records.imp fun _ _ record => record.append more more'
      exact ⟨_, more, more', visited', knowledge,
        List.rel_append earlier (.cons ⟨rfl, decision⟩ .nil)⟩

theorem Beside.visitAll (beside : Beside T exchanges known known' n n') (reading : Term.IsReading T)
    {instructions : List Instruction}
    (commutes : ∀ inst ∈ instructions, exchanges inst = true → inst.opcode.isCommutative = true)
    (finished : (visitAll column n instructions).fault = none) :
    (Numbering.visitAll column n'
      (instructions.map fun inst => inst.exchange (exchanges inst))).fault = none ∧
      ∃ more more', Beside T exchanges (known ++ more) (known' ++ more')
        (Numbering.visitAll column n instructions).numbering
        (Numbering.visitAll column n'
          (instructions.map fun inst => inst.exchange (exchanges inst))).numbering := by
  -- Both lists of known terms grow as the runs go on, so the step is used at any two of them.
  induction instructions generalizing n n' known known' with
  | nil =>
      refine ⟨rfl, [], [], ?_⟩
      rwa [List.append_nil, List.append_nil]
  | cons inst rest ih =>
      have first := commutes inst (List.mem_cons_self ..)
      have others := fun other member => commutes other (List.mem_cons_of_mem inst member)
      rw [List.map_cons]
      unfold Numbering.visitAll at finished ⊢
      split at finished
      · cases finished
      · next next step =>
          obtain ⟨next', more, more', step', after⟩ :=
            beside.visit reading first (visited_of_visit step)
          obtain ⟨finished', later, later', whole⟩ := ih after others finished
          rw [step']
          refine ⟨finished', more ++ later, more' ++ later', ?_⟩
          rwa [← List.append_assoc, ← List.append_assoc]

end Numbering

def Record.exchange (exchanged : Bool) (r : Record) : Record :=
  { r with operands := reversedIf exchanged r.operands,
           instruction := r.instruction.exchange exchanged }

structure Record.Renumbered (φ : Int → Int) (r r' : Record) : Prop where
  instruction : r'.instruction = r.instruction
  number : r'.number = φ r.number
  operands : r'.operands = r.operands.map (Option.map φ)

theorem Numbered.bounds {known : List Term} {n : Int} {t : Term} (numbered : Numbered known n t) :
    1 ≤ n ∧ n < known.length + 1 := by
  obtain ⟨i, u, found, place, -⟩ := numbered
  have inside : i < known.length := (List.getElem?_eq_some_iff.mp found).1
  constructor <;> omega

theorem Decision.mem_numbers_exchange (d : Decision) (exchanged : Bool) (number : Option Int) :
    number ∈ (d.exchange exchanged).numbers ↔ number ∈ d.numbers := by
  cases exchanged <;> simp [numbers, exchange, reversedIf]

namespace Numbering

def given (n : Numbering) : Set Int := { number | 1 ≤ number ∧ number < n.knowledge.store.next }

/-- Each record of the second run is that of the first one under other numbers, and redundant if
that is; every number that the second run has given out is such a number. -/
structure Renumbers (φ : Int → Int) (exchanges : Instruction → Bool) (n n' : Numbering) : Prop where
  records : List.Forall₂ (fun r r' => r.Renumbered φ (r'.exchange (exchanges r.instruction)))
    n.records n'.records
  redundant : List.Forall₂ (fun r r' : Record => r.redundant = true → r'.redundant = true)
    n.records n'.records
  mapsTo : Set.MapsTo φ n.given n'.given
  surjOn : Set.SurjOn φ n.given n'.given

variable {T : Term → Term} {exchanges : Instruction → Bool} {known known' : List Term}
    {n n' : Numbering}

theorem Beside.exists_linked (beside : Beside T exchanges known known' n n')
    (mentioned : Mentioned n) {number : Int} (isGiven : number ∈ n.given) :
    ∃ number', Linked T known known' number number' := by
  obtain ⟨r, isRecord, mentions⟩ := mentioned number isGiven.1 isGiven.2
  obtain ⟨r', -, record⟩ := exists_of_mem_right beside.records.flip isRecord
  obtain ⟨other, -, related⟩ := exists_of_mem_right record.decision.numbers.flip mentions
  cases related with
  | some linked => exact ⟨_, linked⟩

theorem Beside.exists_linked_right (beside : Beside T exchanges known known' n n')
    (mentioned' : Mentioned n') {number' : Int} (isGiven : number' ∈ n'.given) :
    ∃ number, Linked T known known' number number' := by
  obtain ⟨r', isRecord, mentions⟩ := mentioned' number' isGiven.1 isGiven.2
  obtain ⟨r, -, record⟩ := exists_of_mem_right beside.records isRecord
  have exchanged := (Decision.mem_numbers_exchange _ (exchanges r.instruction) _).mpr mentions
  obtain ⟨other, -, related⟩ := exists_of_mem_right record.decision.numbers exchanged
  cases related with
  | some linked => exact ⟨_, linked⟩

theorem Beside.exists_renumbers (beside : Beside T exchanges known known' n n')
    (reading : Term.IsReading T) (mentioned : Mentioned n) (mentioned' : Mentioned n') :
    ∃ φ : Int → Int, Renumbers φ exchanges n n' ∧ (Term.Faithful T → Set.InjOn φ n.given) := by
  obtain ⟨computed, computed', s, s', represents, represents', -, -⟩ := beside.knowledge
  obtain ⟨φ, renumbers⟩ := exists_renumbering reading represents'.distinct
  have linked : ∀ number ∈ n.given, Linked T known known' number (φ number) := by
    intro number isGiven
    obtain ⟨number', linked⟩ := beside.exists_linked mentioned isGiven
    rwa [← renumbers number number' linked]
  refine ⟨φ, ⟨?_, beside.records.imp fun _ _ record => record.decision.redundant, ?_, ?_⟩, ?_⟩
  · apply beside.records.imp
    intro r r' record
    have numbers := map_of_linked renumbers record.decision.numbers
    rw [Decision.numbers, Decision.numbers, List.map_cons, List.cons.injEq] at numbers
    refine ⟨?_, Option.some.inj numbers.1, numbers.2⟩
    rw [Record.exchange, record.instruction, Instruction.exchange_exchange]
  · intro number isGiven
    obtain ⟨t, t', -, numbered', -⟩ := linked number isGiven
    rw [given, represents'.next]
    exact numbered'.bounds
  · intro number' isGiven
    obtain ⟨number, link⟩ := beside.exists_linked_right mentioned' isGiven
    refine ⟨number, ?_, (renumbers number number' link).symm⟩
    obtain ⟨t, t', numbered, -, -⟩ := link
    rw [given, represents.next]
    exact numbered.bounds
  · intro faithful number isGiven other isGiven' same
    have link := linked number isGiven
    rw [same] at link
    exact link.left_unique faithful represents.distinct (linked other isGiven')

theorem Beside.positive (beside : Beside T exchanges known known' n n') :
    1 ≤ n.knowledge.store.next ∧ 1 ≤ n'.knowledge.store.next := by
  obtain ⟨computed, computed', s, s', represents, represents', -, -⟩ := beside.knowledge
  rw [represents.next, represents'.next]
  constructor <;> omega

theorem Renumbers.next_le {φ : Int → Int} (renumbers : Renumbers φ exchanges n n')
    (beside : Beside T exchanges known known' n n') :
    n'.knowledge.store.next ≤ n.knowledge.store.next := by
  have surjective : Set.SurjOn φ (Finset.Ico 1 n.knowledge.store.next)
      (Finset.Ico 1 n'.knowledge.store.next) := by
    rw [Finset.coe_Ico, Finset.coe_Ico]
    exact renumbers.surjOn
  have sizes := Finset.card_le_card_of_surjOn φ surjective
  have positive := beside.positive
  rw [Int.card_Ico, Int.card_Ico] at sizes
  omega

theorem Renumbers.next_eq {φ : Int → Int} (renumbers : Renumbers φ exchanges n n')
    (injective : Set.InjOn φ n.given) (beside : Beside T exchanges known known' n n') :
    n'.knowledge.store.next = n.knowledge.store.next := by
  apply Int.le_antisymm (renumbers.next_le beside)
  have maps : Set.MapsTo φ (Finset.Ico 1 n.knowledge.store.next)
      (Finset.Ico 1 n'.knowledge.store.next) := by
    rw [Finset.coe_Ico, Finset.coe_Ico]
    exact renumbers.mapsTo
  have injective' : Set.InjOn φ (Finset.Ico 1 n.knowledge.store.next) := by
    rw [Finset.coe_Ico]
    exact injective
  have sizes := Finset.card_le_card_of_injOn φ maps injective'
  have positive := beside.positive
  rw [Int.card_Ico, Int.card_Ico] at sizes
  omega

theorem Beside.redundant_eq (beside : Beside T exchanges known known' n n')
    (faithful : Term.Faithful T) :
    n'.records.map (·.redundant) = n.records.map (·.redundant) := by
  rw [← List.forall₂_eq_eq_eq, List.forall₂_map_left_iff, List.forall₂_map_right_iff]
  apply beside.records.flip.imp
  intro r' r record
  exact Bool.eq_iff_iff.mpr ⟨record.decision.faithful faithful, record.decision.redundant⟩

structure Renumbers.Faithful (φ : Int → Int) (n n' : Numbering) : Prop where
  injOn : Set.InjOn φ n.given
  next : n'.knowledge.store.next = n.knowledge.store.next
  redundant : n'.records.map (·.redundant) = n.records.map (·.redundant)

theorem exists_renumbers_of_finished {settings settings' : Settings}
    (sameColumn : settings'.column = settings.column) {fn fn' : Function}
    (exchanged : fn'.instructions = fn.instructions.map fun inst => inst.exchange (exchanges inst))
    (commutes : ∀ inst ∈ fn.instructions, exchanges inst = true → inst.opcode.isCommutative = true)
    (reading : Term.IsReading T)
    (start : ∀ v, Term.ReadAs T (Symbolic.term { shareLiterals := settings.shareLiterals } v)
      (Symbolic.term { shareLiterals := settings'.shareLiterals } v))
    (finished : (ofFunction settings fn).fault = none) :
    (ofFunction settings' fn').fault = none ∧
      (ofFunction settings' fn').numbering.knowledge.store.next ≤
        (ofFunction settings fn).numbering.knowledge.store.next ∧
      ∃ φ : Int → Int, Renumbers φ exchanges (ofFunction settings fn).numbering
        (ofFunction settings' fn').numbering ∧
        (Term.Faithful T → Renumbers.Faithful φ (ofFunction settings fn).numbering
          (ofFunction settings' fn').numbering) := by
  have sameRun : ofFunction settings' fn' =
      visitAll settings.column ⟨initial settings'.shareLiterals, []⟩
      (fn.instructions.map fun inst => inst.exchange (exchanges inst)) := by
    rw [ofFunction, ofInstructions, exchanged, sameColumn]
    rfl
  rw [sameRun]
  have none : Beside T exchanges [] [] ⟨initial settings.shareLiterals, []⟩
      ⟨initial settings'.shareLiterals, []⟩ :=
    ⟨⟨[], [], _, _, Represents.start _, Represents.start _, ⟨rfl, start, fun _ => .none⟩, .nil⟩,
      .nil⟩
  obtain ⟨finished', more, more', beside⟩ := none.visitAll reading commutes finished
  have mentioned := mentioned_of_visitAll finished
  have mentioned' := mentioned_of_visitAll finished'
  obtain ⟨φ, renumbers, injective⟩ := beside.exists_renumbers reading mentioned mentioned'
  refine ⟨finished', renumbers.next_le beside, φ, renumbers, ?_⟩
  intro faithful
  have injOn := injective faithful
  exact ⟨injOn, renumbers.next_eq injOn beside, beside.redundant_eq faithful⟩

end Numbering

end ValueNumbering

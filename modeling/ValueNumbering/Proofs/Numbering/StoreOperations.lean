import ValueNumbering.Proofs.Lists
import ValueNumbering.Proofs.Numbering.Operands

/-!
A store under any use. Whatever operations follow one another, a place holds the number that was
last bound to it, a new number was never held before, and an operation touches one place only.
-/

namespace ValueNumbering

namespace Store

/-- What a store holds a number for. -/
inductive Place
  | value (v : Value)
  | literal (c : Int)
  | pointer (p : Value)
  deriving DecidableEq, Repr

def held (s : Store) : Place → Option Int
  | .value v => s.values.find? v
  | .literal c => s.literals.find? c
  | .pointer p => s.pointers.find? p

def hold (s : Store) (n : Int) : Place → Store
  | .value v => { s with values := s.values.insert v n }
  | .literal c => { s with literals := s.literals.insert c n }
  | .pointer p => { s with pointers := s.pointers.insert p n }

def advance (s : Store) : Store := { s with next := s.next + 1 }

@[simp] theorem held_advance (s : Store) (place : Place) : s.advance.held place = s.held place := by
  cases place <;> rfl

@[simp] theorem next_hold (s : Store) (n : Int)
    (place : Place) : (s.hold n place).next = s.next := by
  cases place <;> rfl

@[simp] theorem shareLiterals_hold (s : Store) (n : Int) (place : Place) :
    (s.hold n place).shareLiterals = s.shareLiterals := by
  cases place <;> rfl

theorem held_hold (s : Store) (n : Int) (place other : Place) :
    (s.hold n place).held other = if other = place then some n else s.held other := by
  cases place <;> cases other <;> simp [hold, held, Dictionary.find?_insert, eq_comm]

def operandPlace (shareLiterals : Bool) (v : Value) : Place :=
  match sharedLiteral? shareLiterals v with
  | some c => .literal c
  | none => .value v

theorem known?_eq_held (s : Store) (v : Value) :
    s.known? v = s.held (operandPlace s.shareLiterals v) := by
  unfold known? operandPlace
  cases sharedLiteral? s.shareLiterals v <;> rfl

inductive Operation
  | numberOf (v : Value)
  | numberOfLiteral (c : Int)
  | resolve (v : Value)
  | fresh (v : Value)
  | assign (v : Value) (n : Int)
  | recordPointer (p : Value) (n : Int)
  | pointerNumber (p : Value)
  deriving DecidableEq, Repr

namespace Operation

def place (shareLiterals : Bool) : Operation → Place
  | numberOf v | fresh v | assign v _ => .value v
  | numberOfLiteral c => .literal c
  | resolve v => operandPlace shareLiterals v
  | recordPointer p _ | pointerNumber p => .pointer p

def given? : Operation → Option Int
  | assign _ n | recordPointer _ n => some n
  | numberOf _ | numberOfLiteral _ | resolve _ | fresh _ | pointerNumber _ => none

def asks : Operation → Bool
  | numberOf _ | numberOfLiteral _ | resolve _ => true
  | fresh _ | assign _ _ | recordPointer _ _ | pointerNumber _ => false

/-- A new number is needed: one was asked for, or that of a place which holds none. -/
def takes (held : Option Int) : Operation → Bool
  | fresh _ => true
  | numberOf _ | numberOfLiteral _ | resolve _ => held.isNone
  | assign _ _ | recordPointer _ _ | pointerNumber _ => false

end Operation

def operate (s : Store) : Operation → Option Int × Store
  | .numberOf v =>
      let (n, s) := s.numberOf v
      (some n, s)
  | .numberOfLiteral c =>
      let (n, s) := s.numberOfLiteral c
      (some n, s)
  | .resolve v =>
      let (n, s) := s.resolve v
      (some n, s)
  | .fresh v =>
      let (n, s) := s.fresh v
      (some n, s)
  | .assign v n => (none, s.assign v n)
  | .recordPointer p n => (none, s.recordPointer p n)
  | .pointerNumber p => (s.pointerNumber p, s)

structure Call where
  operation : Operation
  answer : Option Int
  deriving DecidableEq, Repr

def operateAll (s : Store) : List Operation → List Call × Store
  | [] => ([], s)
  | op :: rest =>
      let (answer, s) := s.operate op
      let (calls, s) := s.operateAll rest
      (⟨op, answer⟩ :: calls, s)

def Call.bound? (shareLiterals : Bool) (place : Place) (call : Call) : Option Int :=
  if call.operation.place shareLiterals = place then
    match call.operation with
    | .assign _ n | .recordPointer _ n => some n
    | .numberOf _ | .numberOfLiteral _ | .resolve _ | .fresh _ => call.answer
    | .pointerNumber _ => none
  else none

def latest (shareLiterals : Bool) (place : Place) (calls : List Call) : Option Int :=
  (calls.filterMap (Call.bound? shareLiterals place)).getLast?

/-- Every number that a caller gives was an answer to an earlier call. -/
def Legitimate (s : Store) (ops : List Operation) : Prop :=
  ∀ i (inside : i < ops.length), ∀ n ∈ ops[i].given?,
    some n ∈ (s.operateAll (ops.take i)).1.map (·.answer)

instance (s : Store) (ops : List Operation) : Decidable (Legitimate s ops) :=
  inferInstanceAs (Decidable (∀ i (_ : i < ops.length), _))

theorem operateAll_concat (s : Store) (ops : List Operation) (op : Operation) :
    s.operateAll (ops ++ [op]) =
      ((s.operateAll ops).1 ++ [⟨op, ((s.operateAll ops).2.operate op).1⟩],
        ((s.operateAll ops).2.operate op).2) := by
  induction ops generalizing s with
  | nil => rfl
  | cons first rest ih => simp [operateAll, ih]

theorem latest_concat (shareLiterals : Bool) (place : Place) (calls : List Call) (call : Call) :
    latest shareLiterals place (calls ++ [call]) =
      (call.bound? shareLiterals place).or (latest shareLiterals place calls) := by
  unfold latest
  cases bound : call.bound? shareLiterals place <;> simp [bound]

inductive Effect (s : Store) : Operation → Option Int → Store → Prop
  | found {op : Operation} {n : Int} (asks : op.asks = true)
      (known : s.held (op.place s.shareLiterals) = some n) :
      Effect s op (some n) s
  | taken {op : Operation} (takes : op.takes (s.held (op.place s.shareLiterals)) = true) :
      Effect s op (some s.next) (s.advance.hold s.next (op.place s.shareLiterals))
  | bound {op : Operation} {n : Int} (given : op.given? = some n) :
      Effect s op none (s.hold n (op.place s.shareLiterals))
  | lookedUp (p : Value) : Effect s (.pointerNumber p) (s.held (.pointer p)) s

theorem effect_operate (s : Store) (op : Operation) :
    Effect s op (s.operate op).1 (s.operate op).2 := by
  cases op with
  | numberOf v =>
      cases known : s.values.find? v with
      | some n =>
          have answer : s.operate (.numberOf v) = (some n, s) := by
            simp [operate, Store.numberOf, known]
          rw [answer]
          exact .found rfl known
      | none =>
          have answer : s.operate (.numberOf v) =
              (some s.next, s.advance.hold s.next (.value v)) := by
            simp [operate, Store.numberOf, known, hold, advance]
          rw [answer]
          exact @Effect.taken s (.numberOf v)
            (by simp [Operation.takes, Operation.place, held, known])
  | numberOfLiteral c =>
      cases known : s.literals.find? c with
      | some n =>
          have answer : s.operate (.numberOfLiteral c) = (some n, s) := by
            simp [operate, Store.numberOfLiteral, known]
          rw [answer]
          exact .found rfl known
      | none =>
          have answer : s.operate (.numberOfLiteral c) =
              (some s.next, s.advance.hold s.next (.literal c)) := by
            simp [operate, Store.numberOfLiteral, known, hold, advance]
          rw [answer]
          exact @Effect.taken s (.numberOfLiteral c)
            (by simp [Operation.takes, Operation.place, held, known])
  | resolve v =>
      have place := s.known?_eq_held v
      cases known : s.known? v with
      | some n =>
          have answer : s.operate (.resolve v) = (some n, s) := by
            simp [operate, resolve_of_known known]
          rw [answer]
          exact .found rfl (place ▸ known)
      | none =>
          have answer : s.operate (.resolve v) =
              (some s.next, s.advance.hold s.next (operandPlace s.shareLiterals v)) := by
            simp only [operate, resolve_of_unknown known, operandPlace]
            cases sharedLiteral? s.shareLiterals v <;> rfl
          rw [answer]
          exact @Effect.taken s (.resolve v)
            (by simp [Operation.takes, Operation.place, ← place, known])
  | fresh v => exact @Effect.taken s (.fresh v) rfl
  | assign v n => exact @Effect.bound s (.assign v n) n rfl
  | recordPointer p n => exact @Effect.bound s (.recordPointer p n) n rfl
  | pointerNumber p => exact .lookedUp p

namespace Effect

variable {s after : Store} {op : Operation} {answer : Option Int}

theorem shareLiterals_eq (effect : Effect s op answer after) :
    after.shareLiterals = s.shareLiterals := by
  cases effect with
  | found | lookedUp => rfl
  | taken | bound => exact shareLiterals_hold _ _ _

theorem held_eq (effect : Effect s op answer after) (place : Place) :
    after.held place = (Call.bound? s.shareLiterals place ⟨op, answer⟩).or (s.held place) := by
  unfold Call.bound?
  cases effect with
  | found asks known =>
      by_cases here : op.place s.shareLiterals = place
      · rw [if_pos here]
        cases op <;> simp_all [Operation.asks]
      · rw [if_neg here, Option.none_or]
  | taken takes =>
      rw [held_hold, held_advance]
      by_cases here : op.place s.shareLiterals = place
      · rw [if_pos here, if_pos here.symm]
        cases op <;> simp_all [Operation.takes]
      · rw [if_neg here, if_neg (Ne.symm here), Option.none_or]
  | bound given =>
      rw [held_hold]
      by_cases here : op.place s.shareLiterals = place
      · rw [if_pos here, if_pos here.symm]
        cases op <;> simp_all [Operation.given?]
      · rw [if_neg here, if_neg (Ne.symm here), Option.none_or]
  | lookedUp p => simp

/-- No other place is touched. -/
theorem held_other (effect : Effect s op answer after) {place : Place}
    (other : place ≠ op.place s.shareLiterals) :
    after.held place = s.held place := by
  rw [effect.held_eq, Call.bound?, if_neg (Ne.symm other), Option.none_or]

theorem of_takes (effect : Effect s op answer after)
    (takes : op.takes (s.held (op.place s.shareLiterals)) = true) :
    answer = some s.next ∧ after.next = s.next + 1 := by
  cases effect with
  | found asks known => cases op <;> simp_all [Operation.takes, Operation.asks]
  | taken => exact ⟨rfl, next_hold _ _ _⟩
  | bound given => cases op <;> simp_all [Operation.takes, Operation.given?]
  | lookedUp p => cases takes

theorem of_not_takes (effect : Effect s op answer after)
    (takes : op.takes (s.held (op.place s.shareLiterals)) = false) :
    after.next = s.next ∧ ∀ n, answer = some n → s.held (op.place s.shareLiterals) = some n := by
  cases effect with
  | found asks known =>
      refine ⟨rfl, fun n isAnswer => ?_⟩
      rw [known, isAnswer]
  | taken takes' =>
      rw [takes] at takes'
      cases takes'
  | bound given => exact ⟨next_hold _ _ _, fun n isAnswer => nomatch isAnswer⟩
  | lookedUp p => exact ⟨rfl, fun n isAnswer => isAnswer⟩

theorem answer_of_asks (effect : Effect s op answer after) (asks : op.asks = true) {n : Int}
    (known : s.held (op.place s.shareLiterals) = some n) : answer = some n := by
  cases effect with
  | found asks' known' => rw [← known', known]
  | taken takes => cases op <;> simp_all [Operation.takes, Operation.asks]
  | bound given => cases op <;> simp_all [Operation.given?, Operation.asks]
  | lookedUp p => cases asks

theorem literal_stays (effect : Effect s op answer after) {c n : Int}
    (known : s.held (.literal c) = some n) :
    after.held (.literal c) = some n := by
  by_cases here : Place.literal c = op.place s.shareLiterals
  · cases effect with
    | found | lookedUp => exact known
    | taken takes => cases op <;> simp_all [Operation.takes, Operation.place]
    | bound given => cases op <;> simp_all [Operation.given?, Operation.place]
  · rw [effect.held_other here, known]

theorem literal_cases (effect : Effect s op answer after) {c n : Int}
    (holds : after.held (.literal c) = some n) :
    s.held (.literal c) = some n ∨ op.place s.shareLiterals = .literal c ∧ n = s.next := by
  by_cases here : Place.literal c = op.place s.shareLiterals
  · cases effect with
    | found | lookedUp => exact Or.inl holds
    | taken takes =>
        rw [held_hold, if_pos here] at holds
        exact Or.inr ⟨here.symm, (Option.some.inj holds).symm⟩
    | bound given => cases op <;> simp_all [Operation.given?, Operation.place]
  · rw [effect.held_other here] at holds
    exact Or.inl holds

end Effect

theorem Call.eq_of_bound? {shareLiterals : Bool} {place : Place} {call : Call} {n : Int}
    (bound : call.bound? shareLiterals place = some n) :
    call.answer = some n ∨ n ∈ call.operation.given? := by
  obtain ⟨op, answer⟩ := call
  unfold Call.bound? at bound
  split at bound
  · cases op <;> simp_all [Operation.given?]
  · cases bound

/-- What holds of a store after some calls: it holds what was bound last, and the numbers it holds
were answers. -/
structure Sound (shareLiterals : Bool) (first : Int) (calls : List Call) (s : Store) : Prop where
  shares : s.shareLiterals = shareLiterals
  start : first ≤ s.next
  latest : ∀ place, s.held place = latest shareLiterals place calls
  answered : ∀ place n, s.held place = some n → some n ∈ calls.map (·.answer)
  within : ∀ n, some n ∈ calls.map (·.answer) → first ≤ n ∧ n < s.next
  literals : ∀ c c' n, s.held (.literal c) = some n → s.held (.literal c') = some n → c = c'

namespace Sound

variable {shareLiterals : Bool} {first : Int} {calls : List Call} {s after : Store} {op : Operation}
    {answer : Option Int}

theorem empty (shareLiterals : Bool) (first : Int) :
    Sound shareLiterals first [] { shareLiterals := shareLiterals, next := first } where
  shares := rfl
  start := Int.le_refl _
  latest := by
    intro place
    cases place <;> rfl
  answered := by
    intro place n found
    cases place <;> cases found
  within := by simp
  literals := by simp [held]

theorem next_not_held (sound : Sound shareLiterals first calls s) (place : Place) :
    s.held place ≠ some s.next := by
  intro found
  have bounds := sound.within s.next (sound.answered place s.next found)
  omega

theorem within_step (sound : Sound shareLiterals first calls s) (effect : Effect s op answer after)
    {n : Int} (isAnswer : some n ∈ (calls ++ [(⟨op, answer⟩ : Call)]).map (·.answer)) :
    first ≤ n ∧ n < after.next := by
  have start := sound.start
  rw [List.map_append, List.mem_append, List.map_singleton, List.mem_singleton] at isAnswer
  cases takes : op.takes (s.held (op.place s.shareLiterals)) with
  | true =>
      obtain ⟨new, next⟩ := effect.of_takes takes
      rcases isAnswer with earlier | now
      · have bounds := sound.within n earlier
        omega
      · rw [new] at now
        have isNext := Option.some.inj now
        omega
  | false =>
      obtain ⟨next, old⟩ := effect.of_not_takes takes
      rw [next]
      rcases isAnswer with earlier | now
      · exact sound.within n earlier
      · exact sound.within n (sound.answered _ n (old n now.symm))

theorem literals_step (sound : Sound shareLiterals first calls s)
    (effect : Effect s op answer after) {c c' n : Int} (holds : after.held (.literal c) = some n)
    (holds' : after.held (.literal c') = some n) : c = c' := by
  rcases effect.literal_cases holds with old | ⟨here, rfl⟩
  · rcases effect.literal_cases holds' with old' | ⟨-, rfl⟩
    · exact sound.literals c c' n old old'
    · exact absurd old (sound.next_not_held _)
  · rcases effect.literal_cases holds' with old' | ⟨there, -⟩
    · exact absurd old' (sound.next_not_held _)
    · exact Place.literal.inj (here.symm.trans there)

/-- Every operation keeps a store sound if the number that it is given, if any, was an answer
before. -/
theorem step (sound : Sound shareLiterals first calls s) (effect : Effect s op answer after)
    (given : ∀ n ∈ op.given?, some n ∈ calls.map (·.answer)) :
    Sound shareLiterals first (calls ++ [⟨op, answer⟩]) after where
  shares := effect.shareLiterals_eq.trans sound.shares
  start := by
    have start := sound.start
    cases takes : op.takes (s.held (op.place s.shareLiterals)) with
    | true =>
        have next := (effect.of_takes takes).2
        omega
    | false => rwa [(effect.of_not_takes takes).1]
  latest := by
    intro place
    rw [effect.held_eq, latest_concat, sound.latest, sound.shares]
  answered := by
    intro place n holds
    rw [List.map_append, List.mem_append, List.map_singleton, List.mem_singleton]
    rw [effect.held_eq, Option.or_eq_some_iff] at holds
    rcases holds with bound | ⟨-, old⟩
    · rcases Call.eq_of_bound? bound with isAnswer | isGiven
      · exact Or.inr isAnswer.symm
      · exact Or.inl (given n isGiven)
    · exact Or.inl (sound.answered place n old)
  within := fun _ isAnswer => sound.within_step effect isAnswer
  literals := fun _ _ _ holds holds' => sound.literals_step effect holds holds'

end Sound

theorem sound_operateAll (shareLiterals : Bool) (first : Int) {ops : List Operation}
    (legitimate : Legitimate { shareLiterals := shareLiterals, next := first } ops) (i : Nat) :
    Sound shareLiterals first (operateAll { shareLiterals := shareLiterals, next := first }
      (ops.take i)).1
      (operateAll { shareLiterals := shareLiterals, next := first } (ops.take i)).2 := by
  induction i with
  | zero => exact Sound.empty shareLiterals first
  | succ i ih =>
      by_cases inside : i < ops.length
      · rw [List.take_succ_eq_append_getElem inside, operateAll_concat]
        exact ih.step (effect_operate _ _) (legitimate i inside)
      · have beyond := Nat.not_lt.mp inside
        rw [List.take_of_length_le beyond] at ih
        rwa [List.take_of_length_le (Nat.le_succ_of_le beyond)]

/-- What a store promises of one operation after some calls: how its answer and the store after it
hang on the calls and on the store before. -/
structure Promise (first : Int) (calls : List Call) (s : Store) (op : Operation)
    (answer : Option Int) (after : Store) : Prop where
  /-- Every number held lies between the first one and the next one. -/
  within : ∀ place n, after.held place = some n → first ≤ n ∧ n < after.next
  /-- A new number is the next one, which was held nowhere, and moves the counter by one. -/
  taken : op.takes (latest s.shareLiterals (op.place s.shareLiterals) calls) = true →
    answer = some s.next ∧ after.next = s.next + 1 ∧ ∀ place, s.held place ≠ some s.next
  /-- Where no new number is needed the counter stays and an answer was given before. -/
  untaken : op.takes (latest s.shareLiterals (op.place s.shareLiterals) calls) = false →
    after.next = s.next ∧ ∀ n, answer = some n → some n ∈ calls.map (·.answer)
  literalsStay : ∀ c n, s.held (.literal c) = some n → after.held (.literal c) = some n
  literalsApart : ∀ c c' n, after.held (.literal c) = some n →
    after.held (.literal c') = some n → c = c'
  /-- The number of a place is the one that the latest call about it bound to it. -/
  number : op.asks = true → ∀ n, latest s.shareLiterals (op.place s.shareLiterals) calls = some n →
    answer = some n
  pointer : ∀ p, op = .pointerNumber p → answer = latest s.shareLiterals (.pointer p) calls
  /-- Only the one place that the operation is about may change. -/
  others : ∀ place, place ≠ op.place s.shareLiterals → after.held place = s.held place

/-- A store that begins empty keeps its promises at every operation of a legitimate sequence. -/
theorem promises_kept (shareLiterals : Bool) (first : Int) {ops : List Operation}
    (legitimate : Legitimate { shareLiterals := shareLiterals, next := first } ops) (i : Nat)
    (inside : i < ops.length) :
    let before := operateAll { shareLiterals := shareLiterals, next := first } (ops.take i)
    before.2.shareLiterals = shareLiterals ∧
      Promise first before.1 before.2 ops[i] (before.2.operate ops[i]).1
        (before.2.operate ops[i]).2 := by
  intro before
  have sound : Sound shareLiterals first before.1 before.2 :=
    sound_operateAll shareLiterals first legitimate i
  have effect := effect_operate before.2 ops[i]
  have sound' := sound.step effect (legitimate i inside)
  have held := sound.latest (ops[i].place before.2.shareLiterals)
  rw [← sound.shares] at held
  refine ⟨sound.shares, ?_, ?_, ?_, ?_, ?_, ?_, ?_, ?_⟩
  · intro place n holds
    exact sound'.within n (sound'.answered place n holds)
  · intro takes
    rw [← held] at takes
    obtain ⟨answer, next⟩ := effect.of_takes takes
    exact ⟨answer, next, sound.next_not_held⟩
  · intro takes
    rw [← held] at takes
    obtain ⟨next, old⟩ := effect.of_not_takes takes
    exact ⟨next, fun n isAnswer => sound.answered _ n (old n isAnswer)⟩
  · intro c n known
    exact effect.literal_stays known
  · exact sound'.literals
  · intro asks n known
    exact effect.answer_of_asks asks (held.trans known)
  · intro p isLookUp
    rw [sound.shares, ← sound.latest, isLookUp]
    rfl
  · intro place other
    exact effect.held_other other

end Store

open Store Operation in
def reboundUses : List Operation :=
  let x : Value := ⟨0, .argument "x" "ptr"⟩
  let seven : Value := ⟨1, .literal 7 "i32"⟩
  [numberOf x, resolve seven, recordPointer x 6, numberOf seven, pointerNumber x, assign x 6,
    fresh x, numberOf x]

theorem reboundUses_kept :
    Store.Legitimate { shareLiterals := true, next := 5 } reboundUses ∧
      (Store.operateAll { shareLiterals := true, next := 5 } reboundUses).1.map (·.answer) =
        [some 5, some 6, none, some 7, some 6, none, some 8, some 8] ∧
      ∀ i (inside : i < reboundUses.length),
        let before := Store.operateAll { shareLiterals := true, next := 5 } (reboundUses.take i)
        before.2.shareLiterals = true ∧
          Store.Promise 5 before.1 before.2 reboundUses[i] (before.2.operate reboundUses[i]).1
          (before.2.operate reboundUses[i]).2 :=
  ⟨by decide, by decide, Store.promises_kept true 5 (by decide)⟩

end ValueNumbering

import ValueNumbering.Proofs.Numbering.History
import ValueNumbering.Proofs.Numbering.SymbolicEquality

/-!
Types of terms. Where equal literals have one type and a load has the type of what was stored, a
number has one type whatever it was given out for, so operations with one key have one type.
-/

namespace ValueNumbering

namespace Action

def resolved : Action → List Value
  | .store value _ => [value]
  | .load _ _ => []
  | .binary _ _ lhs rhs => [lhs, rhs]

def storedThrough? (pointer : Value) : Action → Option Value
  | .store value pointer' => if pointer' = pointer then some value else none
  | .load _ _ => none
  | .binary _ _ _ _ => none

end Action

def lastStored? (pointer : Value) (actions : List Action) : Option Value :=
  actions.reverse.findSome? (Action.storedThrough? pointer)

theorem lastStored?_concat (pointer : Value) (actions : List Action) (action : Action) :
    lastStored? pointer (actions ++ [action]) =
      (action.storedThrough? pointer).or (lastStored? pointer actions) := by
  simp [lastStored?, List.findSome?_cons]
  cases action.storedThrough? pointer <;> rfl

/-- Operands of an operation have the type of its result. -/
def OperationsTyped (actions : List Action) (typeOf : Value → String) : Prop :=
  ∀ opcode result lhs rhs, .binary opcode result lhs rhs ∈ actions → typeOf lhs = typeOf result ∧
    typeOf rhs = typeOf result

def LiteralsAgree (actions : List Action) (typeOf : Value → String) : Prop :=
  ∀ v ∈ actions.flatMap (·.resolved), ∀ w ∈ actions.flatMap (·.resolved),
    v.literal?.isSome = true → v.literal? = w.literal? → typeOf v = typeOf w

/-- What a load yields has the type of what was stored last through its pointer. -/
def LoadsAgree (actions : List Action) (typeOf : Value → String) : Prop :=
  ∀ before result pointer after, actions = before ++ .load result pointer :: after →
    ∀ stored, lastStored? pointer before = some stored → typeOf stored = typeOf result

namespace Term

inductive Typed (shareLiterals : Bool) (actions : List Action) (typeOf : Value → String) :
    Term → String → Prop
  | literal {c : Int} {v : Value} (shared : shareLiterals = true)
      (used : v ∈ actions.flatMap (·.resolved))
      (is : v.literal? = some c) : Typed shareLiterals actions typeOf (.literal c) (typeOf v)
  | unbound (v : Value) : Typed shareLiterals actions typeOf (.unbound v) (typeOf v)
  | loaded {i : Nat} {result pointer : Value} (here : actions[i]? = some (.load result pointer)) :
      Typed shareLiterals actions typeOf (.loaded i) (typeOf result)
  | operation {lhs rhs : Term} {type : String} (opcode : Opcode)
      (left : Typed shareLiterals actions typeOf lhs type)
      (right : Typed shareLiterals actions typeOf rhs type) :
      Typed shareLiterals actions typeOf (.operation opcode lhs rhs) type

variable {shareLiterals : Bool} {actions : List Action} {typeOf : Value → String}

theorem Same.typed_iff {s t : Term} (same : Same s t) (type : String) :
    Typed shareLiterals actions typeOf s type ↔ Typed shareLiterals actions typeOf t type := by
  induction same with
  | refl t => rfl
  | symm _ ih => exact ih.symm
  | trans _ _ first second => exact first.trans second
  | congr opcode _ _ left right =>
      constructor
      · intro typed
        cases typed with
        | operation _ typedLeft typedRight =>
          exact .operation opcode (left.mp typedLeft) (right.mp typedRight)
      · intro typed
        cases typed with
        | operation _ typedLeft typedRight =>
          exact .operation opcode (left.mpr typedLeft) (right.mpr typedRight)
  | swap commutes lhs rhs =>
      constructor <;> intro typed <;> cases typed with
      | operation _ typedLeft typedRight => exact .operation _ typedRight typedLeft

theorem Typed.unique (literals : shareLiterals = true → LiteralsAgree actions typeOf) {t : Term}
    {type type' : String} (typed : Typed shareLiterals actions typeOf t type)
    (typed' : Typed shareLiterals actions typeOf t type') :
    type = type' := by
  induction typed with
  | literal shared used is =>
      cases typed' with
      | literal shared' used' is' =>
          exact literals shared _ used _ used' (by simp [is]) (is.trans is'.symm)
  | unbound v =>
      cases typed'
      rfl
  | loaded here =>
      cases typed' with
      | loaded here' =>
          rw [here] at here'
          cases here'
          rfl
  | operation opcode _ _ left _ =>
      cases typed' with
      | operation _ left' _ => exact left left'

end Term

inductive MeaningTyped (shareLiterals : Bool) (actions : List Action) (typeOf : Value → String) :
    Action → Meaning → Prop
  | store {value pointer : Value} {m : Meaning} :
      MeaningTyped shareLiterals actions typeOf (.store value pointer) m
  | load {result pointer : Value} {m : Meaning} :
      MeaningTyped shareLiterals actions typeOf (.load result pointer) m
  | binary {opcode : Opcode} {result lhs rhs : Value} {left right : Term} {m : Meaning}
      (operands : m.operands = [some left, some right])
      (typedLeft : Term.Typed shareLiterals actions typeOf left (typeOf result))
      (typedRight : Term.Typed shareLiterals actions typeOf right (typeOf result)) :
      MeaningTyped shareLiterals actions typeOf (.binary opcode result lhs rhs) m

namespace Symbolic

/-- The bindings and cells after some of the actions hold terms of the types of their values. -/
structure WellTyped (actions : List Action) (typeOf : Value → String) (before : List Action)
    (s : Symbolic) : Prop where
  position : s.position = before.length
  binding : ∀ v t, s.bindings.find? v = some t → t.Typed s.shareLiterals actions typeOf (typeOf v)
  cell : ∀ p t, s.cells.find? p = some t →
    ∃ stored, lastStored? p before = some stored ∧
      t.Typed s.shareLiterals actions typeOf (typeOf stored)

namespace WellTyped

variable {actions before : List Action} {typeOf : Value → String} {s : Symbolic}

theorem start (shareLiterals : Bool) (actions : List Action) (typeOf : Value → String) :
    WellTyped actions typeOf [] { shareLiterals := shareLiterals } :=
  ⟨rfl, by simp, by simp⟩

theorem bound (typed : WellTyped actions typeOf before s) (v : Value) :
    (s.bound v).Typed s.shareLiterals actions typeOf (typeOf v) := by
  unfold Symbolic.bound
  cases found : s.bindings.find? v with
  | some t => exact typed.binding v t found
  | none => exact .unbound v

theorem term (typed : WellTyped actions typeOf before s) {v : Value}
    (used : v ∈ actions.flatMap (·.resolved)) :
    (s.term v).Typed s.shareLiterals actions typeOf (typeOf v) := by
  unfold Symbolic.term
  split
  · next shared is => exact .literal shared used is
  · exact typed.bound v

theorem bind (typed : WellTyped actions typeOf before s) {result : Value} {t : Term}
    (new : t.Typed s.shareLiterals actions typeOf (typeOf result)) {action : Action}
    (notStore : ∀ p, action.storedThrough? p = none) :
    WellTyped actions typeOf (before ++ [action]) (s.bind result t).advance where
  position := by simp [Symbolic.advance, Symbolic.bind, typed.position]
  binding := by
    intro v u found
    simp only [Symbolic.advance, Symbolic.bind, Dictionary.find?_insert] at found
    split at found
    · next here =>
        cases found
        exact here ▸ new
    · exact typed.binding v u found
  cell := by
    intro p u found
    rw [lastStored?_concat, notStore p]
    exact typed.cell p u found

theorem write (typed : WellTyped actions typeOf before s) {value : Value}
    (used : value ∈ actions.flatMap (·.resolved)) (pointer : Value) :
    WellTyped actions typeOf (before ++ [.store value pointer])
      (s.write pointer (s.term value)).advance where
  position := by simp [Symbolic.advance, Symbolic.write, typed.position]
  binding := typed.binding
  cell := by
    intro p t found
    simp only [Symbolic.advance, Symbolic.write, Dictionary.find?_insert] at found
    rw [lastStored?_concat, Action.storedThrough?]
    split at found
    · next here =>
        cases found
        exact ⟨value, by simp [here], typed.term used⟩
    · next other =>
        obtain ⟨stored, last, isTyped⟩ := typed.cell p t found
        exact ⟨stored, by simpa [other] using last, isTyped⟩

theorem perform (typed : WellTyped actions typeOf before s) {action : Action} {after : List Action}
    (split : actions = before ++ action :: after) (operations : OperationsTyped actions typeOf)
    (loads : LoadsAgree actions typeOf) :
    WellTyped actions typeOf (before ++ [action]) (s.perform action).2 ∧
      MeaningTyped s.shareLiterals actions typeOf action (s.perform action).1 := by
  have member : action ∈ actions := by simp [split]
  have used : ∀ v ∈ action.resolved, v ∈ actions.flatMap (·.resolved) :=
    fun v isOperand => List.mem_flatMap.mpr ⟨action, member, isOperand⟩
  cases action with
  | store value pointer =>
    exact ⟨typed.write (used value (by simp [Action.resolved])) pointer, .store⟩
  | load result pointer =>
      refine ⟨typed.bind ?_ fun p => rfl, .load⟩
      cases found : s.cells.find? pointer with
      | none =>
          have here : actions[s.position]? = some (.load result pointer) := by
            simp [split, typed.position]
          exact .loaded here
      | some t =>
          obtain ⟨stored, last, isTyped⟩ := typed.cell pointer t found
          exact loads before result pointer after split stored last ▸ isTyped
  | binary opcode result lhs rhs =>
      obtain ⟨left, right⟩ := operations opcode result lhs rhs member
      have typedLeft := left ▸ typed.term (used lhs (by simp [Action.resolved]))
      have typedRight := right ▸ typed.term (used rhs (by simp [Action.resolved]))
      exact ⟨typed.bind (.operation opcode typedLeft typedRight) fun p => rfl,
        .binary rfl typedLeft typedRight⟩

end WellTyped

@[simp] theorem perform_shareLiterals (s : Symbolic) (action : Action) :
    (s.perform action).2.shareLiterals = s.shareLiterals := by
  cases action <;> rfl

theorem meanings_typed {actions before rest : List Action} {typeOf : Value → String} {s : Symbolic}
    (typed : WellTyped actions typeOf before s) (split : actions = before ++ rest)
    (operations : OperationsTyped actions typeOf) (loads : LoadsAgree actions typeOf) :
    List.Forall₂ (MeaningTyped s.shareLiterals actions typeOf) rest (s.performAll rest).1 := by
  induction rest generalizing before s with
  | nil => exact .nil
  | cons action rest ih =>
      obtain ⟨after, isTyped⟩ := typed.perform split operations loads
      have later := ih after (by simpa using split)
      rw [perform_shareLiterals] at later
      exact .cons isTyped later

end Symbolic

structure OperandsTyped (known : List Term) (shareLiterals : Bool) (actions : List Action)
    (typeOf : Value → String) (type : String) (left right : Int) : Prop where
  left : ∃ t, Numbered known left t ∧ t.Typed shareLiterals actions typeOf type
  right : ∃ t, Numbered known right t ∧ t.Typed shareLiterals actions typeOf type

theorem Numbered.type_unique {known : List Term} {shareLiterals : Bool} {actions : List Action}
    {typeOf : Value → String} (literals : shareLiterals = true → LiteralsAgree actions typeOf)
    {n : Int} {type type' : String}
    (first : ∃ t, Numbered known n t ∧ t.Typed shareLiterals actions typeOf type)
    (second : ∃ t, Numbered known n t ∧ t.Typed shareLiterals actions typeOf type') :
    type = type' := by
  obtain ⟨t, numbered, typed⟩ := first
  obtain ⟨u, numbered', typed'⟩ := second
  have same := numbered.same_term numbered'
  exact Term.Typed.unique literals ((same.typed_iff type).mp typed) typed'

theorem operandsTyped_of_meets {known : List Term} {shareLiterals : Bool} {actions : List Action}
    {typeOf : Value → String} {r : Record} {action : Action} {m : Meaning}
    (performs : r.instruction.Performs action)
    (typed : MeaningTyped shareLiterals actions typeOf action m)
    (meets : Meets known r.toDecision m) (binary : r.instruction.isBinary = true) :
    ∃ left right, r.operands = [some left, some right] ∧
      OperandsTyped known shareLiterals actions typeOf (typeOf r.instruction.result)
        left right := by
  have isOperation := performs.isBinary_eq.trans binary
  cases performs with
  | store opcode first last => simp [Action.isBinary] at isOperation
  | load opcode last => simp [Action.isBinary] at isOperation
  | binary opcode both =>
      cases typed with
      | binary operands typedLeft typedRight =>
          have numbers := meets
          rw [Meets, Meaning.terms, operands, Decision.numbers] at numbers
          cases numbers with
          | cons _ rest =>
              generalize r.operands = found at rest
              cases rest with
              | cons first rest =>
                  cases rest with
                  | cons second rest =>
                      cases rest
                      cases first with
                      | some left =>
                          cases second with
                          | some right =>
                            exact ⟨_, _, rfl, ⟨_, left, typedLeft⟩, ⟨_, right, typedRight⟩⟩

namespace Numbering

variable {settings : Settings} {fn : Function} {typeOf : Value → String}

/-- Operations with one key have one type. -/
theorem type_eq_of_key (finished : (ofFunction settings fn).fault = none)
    (operations : OperationsTyped fn.actions typeOf) (loads : LoadsAgree fn.actions typeOf)
    (literals : settings.shareLiterals = true → LiteralsAgree fn.actions typeOf) {e r : Record}
    {key : Expression} (first : e ∈ (ofFunction settings fn).numbering.records)
    (second : r ∈ (ofFunction settings fn).numbering.records)
    (binary : e.instruction.isBinary = true) (binary' : r.instruction.isBinary = true)
    (isKey : e.key? = some key) (isKey' : r.key? = some key) :
    typeOf e.instruction.result = typeOf r.instruction.result := by
  obtain ⟨known, -, meets, -⟩ := follows settings.shareLiterals fn.actions
  rw [← decisions_of_finished finished] at meets
  have meets := List.forall₂_map_left_iff.mp meets
  have performs := (oneRecordEach_of_finished finished).performs
  have typed := Symbolic.meanings_typed
    (Symbolic.WellTyped.start settings.shareLiterals fn.actions typeOf)
    (List.nil_append _).symm operations loads
  have operandsTyped : ∀ s ∈ (ofFunction settings fn).numbering.records,
      s.instruction.isBinary = true →
      ∃ left right, s.operands = [some left, some right] ∧
        OperandsTyped known settings.shareLiterals fn.actions typeOf (typeOf s.instruction.result)
          left right := by
    intro s member isBinary
    obtain ⟨i, inside, rfl⟩ := List.mem_iff_getElem.mp member
    have insideActions := performs.length_eq ▸ inside
    have insideMeanings := meets.length_eq ▸ inside
    exact operandsTyped_of_meets (performs.get inside insideActions)
      (typed.get insideActions insideMeanings)
      (meets.get inside insideMeanings) isBinary
  obtain ⟨left, right, operands, isTyped⟩ := operandsTyped e first binary
  obtain ⟨left', right', operands', isTyped'⟩ := operandsTyped r second binary'
  have sameKey : Expression.canonical e.instruction.opcode left right =
      Expression.canonical r.instruction.opcode left' right' := by
    simp only [Record.key?, operands, operands', Option.some.injEq] at isKey isKey'
    rw [isKey, isKey']
  -- The left number of the one is a number of the other, in either place where operands commute.
  rcases (Expression.canonical_eq_iff.mp sameKey).2 with ⟨same, -⟩ | ⟨-, crossed, -⟩
  · exact Numbered.type_unique literals isTyped.left (same ▸ isTyped'.left)
  · exact Numbered.type_unique literals isTyped.left (crossed ▸ isTyped'.right)

end Numbering

end ValueNumbering

import ValueNumbering.Proofs.Numbering.Repetition
import ValueNumbering.Proofs.Numbering.SymbolicEquality

/-!
Two symbolic executions in step, the terms of the first read as those of the second: of one function
with equal literals shared or not, or of two functions that differ in the order of operands that
commute.
-/

namespace ValueNumbering

namespace Term

/-- A map of terms that goes through operations and keeps what is loaded. -/
structure IsReading (T : Term → Term) : Prop where
  loaded : ∀ position, T (.loaded position) = .loaded position
  operation : ∀ opcode lhs rhs, T (.operation opcode lhs rhs) = .operation opcode (T lhs) (T rhs)

/-- The second term is how the first one is read, up to the order of operands that commute. -/
def ReadAs (T : Term → Term) (t u : Term) : Prop := (T t).Same u

/-- Terms that are read alike are the same. -/
def Faithful (T : Term → Term) : Prop := ∀ {t u : Term}, (T t).Same (T u) → t.Same u

theorem isReading_id : IsReading id := ⟨fun _ => rfl, fun _ _ _ => rfl⟩

variable {T : Term → Term}

theorem IsReading.same (reading : IsReading T) {t u : Term}
    (same : t.Same u) : (T t).Same (T u) := by
  induction same with
  | refl t => exact .refl _
  | symm _ ih => exact ih.symm
  | trans _ _ first second => exact first.trans second
  | congr opcode _ _ left right =>
      rw [reading.operation, reading.operation]
      exact .congr opcode left right
  | swap commutes lhs rhs =>
      rw [reading.operation, reading.operation]
      exact .swap commutes _ _

theorem ReadAs.operation (reading : IsReading T) {lhs rhs lhs' rhs' : Term} (opcode : Opcode)
    (left : ReadAs T lhs lhs') (right : ReadAs T rhs rhs') :
    ReadAs T (.operation opcode lhs rhs) (.operation opcode lhs' rhs') := by
  unfold ReadAs
  rw [reading.operation]
  exact .congr opcode left right

theorem IsReading.exists_same (reading : IsReading T) {computed computed' : List Term}
    (read : List.Forall₂ (ReadAs T) computed computed') {t t' : Term} (here : ReadAs T t t')
    (before : ∃ u ∈ computed, u.Same t) : ∃ u ∈ computed', u.Same t' := by
  obtain ⟨u, member, same⟩ := before
  obtain ⟨u', member', there⟩ := exists_of_mem_right read.flip member
  refine ⟨u', member', ?_⟩
  apply there.symm.trans
  exact (reading.same same).trans here

theorem Faithful.exists_same (faithful : Faithful T) {computed computed' : List Term}
    (read : List.Forall₂ (ReadAs T) computed computed') {t t' : Term} (here : ReadAs T t t')
    (before : ∃ u ∈ computed', u.Same t') : ∃ u ∈ computed, u.Same t := by
  obtain ⟨u', member', same⟩ := before
  obtain ⟨u, member, there⟩ := exists_of_mem_right read member'
  refine ⟨u, member, ?_⟩
  apply faithful
  exact there.trans (same.trans here.symm)

end Term

def reversedIf {α : Type} (exchanged : Bool) (xs : List α) : List α :=
  if exchanged then xs.reverse else xs

theorem reversedIf_reversedIf {α : Type} (exchanged : Bool) (xs : List α) :
    reversedIf exchanged (reversedIf exchanged xs) = xs := by
  cases exchanged with
  | false => rfl
  | true => exact List.reverse_reverse xs

theorem forall₂_reversedIf {α β : Type} {R : α → β → Prop} (exchanged : Bool) {xs : List α}
    {ys : List β} (related : List.Forall₂ R xs ys) :
    List.Forall₂ R (reversedIf exchanged xs) (reversedIf exchanged ys) := by
  cases exchanged with
  | false => exact related
  | true => exact List.forall₂_reverse_iff.mpr related

def Instruction.exchange (exchanged : Bool) (inst : Instruction) : Instruction :=
  { inst with operands := reversedIf exchanged inst.operands }

def Decision.exchange (exchanged : Bool) (d : Decision) : Decision :=
  { d with operands := reversedIf exchanged d.operands }

def Meaning.exchange (exchanged : Bool) (m : Meaning) : Meaning :=
  { m with operands := reversedIf exchanged m.operands }

theorem Instruction.exchange_exchange (exchanged : Bool) (inst : Instruction) :
    (inst.exchange exchanged).exchange exchanged = inst := by
  simp only [exchange, reversedIf_reversedIf]

/-- An action and what becomes of it when the operands of its instruction are exchanged, which have
to commute. -/
inductive Action.Exchanged : Bool → Action → Action → Prop
  | kept (action : Action) : Exchanged false action action
  | swapped {opcode : Opcode} (commutes : opcode.isCommutative = true) (result lhs rhs : Value) :
      Exchanged true (.binary opcode result lhs rhs) (.binary opcode result rhs lhs)

namespace Symbolic

/-- Two states of symbolic execution in step, the second holding how the terms of the first are
read. -/
structure ReadAs (T : Term → Term) (s s' : Symbolic) : Prop where
  position : s.position = s'.position
  term : ∀ v, Term.ReadAs T (s.term v) (s'.term v)
  cell : ∀ p, Option.Rel (Term.ReadAs T) (s.cells.find? p) (s'.cells.find? p)

theorem term_bind (s : Symbolic) {result : Value} (plain : result.literal? = none) (t : Term)
    (v : Value) :
    (s.bind result t).advance.term v = if result = v then t else s.term v := by
  unfold term
  cases shares : s.shareLiterals with
  | false =>
      have kept : (s.bind result t).advance.shareLiterals = false := shares
      rw [kept, bound_advance, bound_bind]
  | true =>
      have kept : (s.bind result t).advance.shareLiterals = true := shares
      rw [kept, bound_advance, bound_bind]
      cases literal : v.literal? with
      | none => rfl
      | some c =>
          have other : result ≠ v := by
            intro same
            rw [← same, plain] at literal
            cases literal
          exact (if_neg other).symm

variable {T : Term → Term} {s s' : Symbolic}

theorem ReadAs.bind (reads : s.ReadAs T s') {result : Value} (plain : result.literal? = none)
    {t t' : Term} (here : Term.ReadAs T t t') :
    (s.bind result t).advance.ReadAs T (s'.bind result t').advance where
  position := congrArg (· + 1) reads.position
  term := by
    intro v
    rw [term_bind s plain, term_bind s' plain]
    by_cases same : result = v
    · rwa [if_pos same, if_pos same]
    · rw [if_neg same, if_neg same]
      exact reads.term v
  cell := reads.cell

theorem ReadAs.write (reads : s.ReadAs T s') (pointer : Value) {t t' : Term}
    (here : Term.ReadAs T t t') :
    (s.write pointer t).advance.ReadAs T (s'.write pointer t').advance where
  position := congrArg (· + 1) reads.position
  term := reads.term
  cell := by
    intro p
    simp only [Symbolic.write, advance, Dictionary.find?_insert]
    by_cases same : pointer = p
    · rw [if_pos same, if_pos same]
      exact .some here
    · rw [if_neg same, if_neg same]
      exact reads.cell p

/-- One action has meanings that are read as one another. -/
theorem ReadAs.perform (reads : s.ReadAs T s') (reading : Term.IsReading T) {action : Action}
    (plain : ∀ v, action.result? = some v → v.literal? = none) :
    List.Forall₂ (Option.Rel (Term.ReadAs T)) (s.perform action).1.terms
      (s'.perform action).1.terms ∧
      (s.perform action).2.ReadAs T (s'.perform action).2 := by
  cases action with
  | store value pointer =>
      have stored := reads.term value
      exact ⟨.cons (.some stored) (.cons (.some stored) .nil), reads.write pointer stored⟩
  | load result pointer =>
      have cell := reads.cell pointer
      have loaded : Term.ReadAs T ((s.cells.find? pointer).getD (.loaded s.position))
          ((s'.cells.find? pointer).getD (.loaded s'.position)) := by
        generalize s.cells.find? pointer = held, s'.cells.find? pointer = held' at cell
        cases cell with
        | some here => exact here
        | none =>
            rw [Option.getD_none, Option.getD_none, ← reads.position, Term.ReadAs, reading.loaded]
            exact .refl _
      exact ⟨.cons (.some loaded) (.cons cell .nil), reads.bind (plain result rfl) loaded⟩
  | binary opcode result lhs rhs =>
      have left := reads.term lhs
      have right := reads.term rhs
      have whole := left.operation reading opcode right
      exact ⟨.cons (.some whole) (.cons (.some left) (.cons (.some right) .nil)),
        reads.bind (plain result rfl) whole⟩

theorem ReadAs.perform_exchanged (reads : s.ReadAs T s') (reading : Term.IsReading T)
    {exchanged : Bool} {action action' : Action}
    (counterpart : Action.Exchanged exchanged action action')
    (plain : ∀ v, action.result? = some v → v.literal? = none) :
    List.Forall₂ (Option.Rel (Term.ReadAs T)) (s.perform action).1.terms
      ((s'.perform action').1.exchange exchanged).terms ∧
      (s.perform action).2.ReadAs T (s'.perform action').2 := by
  cases counterpart with
  | kept => exact reads.perform reading plain
  | @swapped opcode commutes result lhs rhs =>
      have left := reads.term lhs
      have right := reads.term rhs
      have whole : Term.ReadAs T (.operation opcode (s.term lhs) (s.term rhs))
          (.operation opcode (s'.term rhs) (s'.term lhs)) :=
        (left.operation reading opcode right).trans (.swap commutes _ _)
      exact ⟨.cons (.some whole) (.cons (.some left) (.cons (.some right) .nil)),
        reads.bind (plain result rfl) whole⟩

end Symbolic

theorem Instruction.Performs.plain {inst : Instruction} {action : Action}
    (performs : inst.Performs action) (v : Value) (result : action.result? = some v) :
    v.literal? = none := by
  rw [performs.result?_eq] at result
  split at result
  · cases result
    rfl
  · cases result

namespace Instruction

theorem exists_operands {inst : Instruction} {action : Action}
    (commutes : inst.opcode.isCommutative = true) (found : inst.action = .ok (some action)) :
    ∃ lhs rhs, inst.operands = [lhs, rhs] ∧
      action = .binary inst.opcode inst.result lhs.value rhs.value := by
  have binary := Opcode.isBinary_of_isCommutative commutes
  cases action_some found with
  | store opcode first last =>
      rw [opcode] at binary
      cases binary
  | load opcode last =>
      rw [opcode] at binary
      cases binary
  | binary isBinary both => exact ⟨_, _, both, rfl⟩

theorem exchange_action {inst : Instruction} {action : Action} {exchanged : Bool}
    (commutes : exchanged = true → inst.opcode.isCommutative = true)
    (found : inst.action = .ok (some action)) :
    ∃ action', (inst.exchange exchanged).action = .ok (some action') ∧
      Action.Exchanged exchanged action action' := by
  cases exchanged with
  | false => exact ⟨action, found, .kept action⟩
  | true =>
      obtain ⟨lhs, rhs, both, rfl⟩ := exists_operands (commutes rfl) found
      have binary : (inst.exchange true).isBinary = true :=
        Opcode.isBinary_of_isCommutative (commutes rfl)
      have reversed : (inst.exchange true).operands = [rhs, lhs] := by
        simp [exchange, reversedIf, both]
      exact ⟨_, action_of_action? (action?_of_binary binary reversed),
        .swapped (commutes rfl) _ _ _⟩

theorem exchange_unmodelled {inst : Instruction} {exchanged : Bool}
    (commutes : exchanged = true → inst.opcode.isCommutative = true)
    (unmodelled : inst.action = .ok none) :
    (inst.exchange exchanged).action = .ok none := by
  cases exchanged with
  | false => exact unmodelled
  | true =>
      have numbered : inst.isNumbered = true := by
        simp [isNumbered, isBinary, Opcode.isBinary_of_isCommutative (commutes rfl)]
      rw [action_none unmodelled] at numbered
      cases numbered

end Instruction

end ValueNumbering

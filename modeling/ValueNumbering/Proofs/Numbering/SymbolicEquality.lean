import Mathlib.Data.List.Forall2
import Mathlib.Data.List.Induction
import ValueNumbering.Proofs.Numbering.Meaning

/-!
Numbers are equal exactly when terms are the same, over a whole run, and an operation is redundant
exactly when its term was computed before.
-/

namespace ValueNumbering

def Action.isBinary : Action → Bool
  | .binary _ _ _ _ => true
  | _ => false

theorem Instruction.Performs.isBinary_eq {inst : Instruction} {action : Action}
    (performs : inst.Performs action) :
    action.isBinary = inst.isBinary := by
  cases performs with
  | store opcode => exact (Instruction.isBinary_of_store opcode).symm
  | load opcode => exact (Instruction.isBinary_of_load opcode).symm
  | binary opcode => exact opcode.symm

def Action.computes : Action → Meaning → List Term
  | .store _ _, _ => []
  | .load _ _, _ => []
  | .binary _ _ _ _, m => [m.term]

namespace Represents

variable {known computed : List Term} {s : Symbolic} {k : Knowledge}

def Preserves (known computed : List Term) (action : Action) (m : Meaning) (s : Symbolic)
    (d : Decision) (k : Knowledge) : Prop :=
  ∃ more, Represents (known ++ more) (computed ++ action.computes m) s k.store k.table ∧
    Meets (known ++ more) d m ∧
    (d.redundant = true ↔ action.isBinary = true ∧ ∃ t ∈ computed, t.Same m.term)

theorem storeThrough (rep : Represents known computed s k.store k.table) (value pointer : Value) :
    Preserves known computed (.store value pointer) (s.perform (.store value pointer)).1
      (s.perform (.store value pointer)).2 (k.storeThrough value pointer).1
        (k.storeThrough value pointer).2 := by
  obtain ⟨more, after, numbered⟩ := rep.resolve value
  refine ⟨more, ?_, ?_, by simp [Knowledge.storeThrough, Action.isBinary]⟩
  · rw [Action.computes, List.append_nil]
    exact after.write numbered pointer
  · exact .cons (.some numbered) (.cons (.some numbered) .nil)

theorem loadFrom (rep : Represents known computed s k.store k.table) (result pointer : Value) :
    Preserves known computed (.load result pointer) (s.perform (.load result pointer)).1
      (s.perform (.load result pointer)).2 (k.loadFrom result pointer).1
        (k.loadFrom result pointer).2 := by
  have related := rep.cell pointer
  unfold Preserves Symbolic.perform
  simp only [Action.computes, Action.isBinary, List.append_nil, Bool.false_eq_true, false_and,
    iff_false, Bool.not_eq_true]
  cases found : k.store.pointers.find? pointer with
  | some number =>
      cases held : s.cells.find? pointer with
      | none => rw [found, held] at related; cases related
      | some t =>
          rw [found, held] at related
          cases related with
          | some numbered =>
              rw [Knowledge.loadFrom_written found]
              refine ⟨[], ?_, ?_, rfl⟩ <;> rw [List.append_nil]
              · exact rep.assign numbered rep.tabled result
              · exact .cons (.some numbered) (.cons (.some numbered) .nil)
  | none =>
      cases held : s.cells.find? pointer with
      | some t => rw [found, held] at related; cases related
      | none =>
          have unknown : Term.loaded s.position ∉ known :=
            fun member => Nat.lt_irrefl _ (rep.loads _ member)
          have new := not_same_of_atom unknown trivial
          rw [Knowledge.loadFrom_unwritten found]
          refine ⟨[.loaded s.position], ?_, ?_, rfl⟩
          · exact rep.fresh new (Or.inl rfl) (rep.tabled.atom trivial) result
          · refine .cons (.some ?_) (.cons .none .nil)
            rw [rep.next]
            exact Numbered.last known _

theorem compute (rep : Represents known computed s k.store k.table) (opcode : Opcode)
    (result lhs rhs : Value) :
    Preserves known computed (.binary opcode result lhs rhs)
      (s.perform (.binary opcode result lhs rhs)).1
      (s.perform (.binary opcode result lhs rhs)).2 (k.compute opcode result lhs rhs).1
      (k.compute opcode result lhs rhs).2 := by
  obtain ⟨more, afterLeft, leftNumber⟩ := rep.resolve lhs
  obtain ⟨more', after, rightNumber⟩ := afterLeft.resolve rhs
  rcases resolved : k.store.resolve lhs with ⟨left, first⟩
  rcases resolved' : first.resolve rhs with ⟨right, second⟩
  rw [resolved] at leftNumber
  rw [resolved, resolved'] at after rightNumber
  have leftNumber' := leftNumber.append more'
  have before := after.tabled.computed_iff after.distinct opcode leftNumber' rightNumber
  rw [List.append_assoc] at after rightNumber leftNumber'
  unfold Preserves Symbolic.perform
  simp only [Action.computes, Action.isBinary, true_and]
  cases found : k.table.find? (Expression.canonical opcode left right) with
  | some number =>
      have whole := after.tabled.hit leftNumber' rightNumber found
      rw [found] at before
      rw [Knowledge.compute_known resolved resolved' found]
      refine ⟨more ++ more', after.assign whole (after.tabled.again whole) result, ?_, by
        simpa using before⟩
      exact .cons (.some whole) (.cons (.some leftNumber') (.cons (.some rightNumber) .nil))
  | none =>
      have new := after.tabled.miss after.distinct leftNumber' rightNumber found
      have tabled := after.tabled.record leftNumber' rightNumber found
      rw [← after.next] at tabled
      rw [found] at before
      rw [Knowledge.compute_new resolved resolved' found]
      refine ⟨more ++ more' ++ [.operation opcode (s.term lhs) (s.term rhs)], ?_, ?_,
        by simpa using before⟩ <;>
        rw [← List.append_assoc]
      · exact after.fresh new (Or.inr ⟨opcode, _, _, rfl⟩) tabled result
      · refine .cons (.some ?_) (.cons (.some (leftNumber'.append _))
          (.cons (.some (rightNumber.append _)) .nil))
        rw [after.next]
        exact Numbered.last _ _

theorem perform (rep : Represents known computed s k.store k.table) (action : Action) :
    Preserves known computed action (s.perform action).1 (s.perform action).2 (k.perform action).1
      (k.perform action).2 := by
  cases action with
  | store value pointer => exact rep.storeThrough value pointer
  | load result pointer => exact rep.loadFrom result pointer
  | binary opcode result lhs rhs => exact rep.compute opcode result lhs rhs

end Represents

/-- What shows of an action after a run: whether it is binary, whether it was redundant, and its
term. -/
structure Mark where
  binary : Bool
  redundant : Bool
  term : Term

def marks (actions : List Action) (decisions : List Decision) (meanings : List Meaning) :
    List Mark :=
  List.zipWith (fun action entry => ⟨action.isBinary, entry.1.redundant, entry.2.term⟩) actions
    (decisions.zip meanings)

def Marked (all : List Mark) : Prop :=
  ∀ earlier mark later, all = earlier ++ mark :: later →
    (mark.redundant = true ↔
      mark.binary = true ∧ ∃ e ∈ earlier, e.binary = true ∧ e.term.Same mark.term)

theorem Marked.concat {all : List Mark} {last : Mark} (marked : Marked all)
    (new : last.redundant = true ↔ last.binary = true ∧ ∃ e ∈ all, e.binary = true ∧
      e.term.Same last.term) :
    Marked (all ++ [last]) := by
  intro earlier mark later split
  rcases List.eq_nil_or_concat' later with rfl | ⟨front, final, rfl⟩
  · obtain ⟨rfl, tail⟩ := List.append_inj' split rfl
    cases tail
    exact new
  · rw [← List.cons_append, ← List.append_assoc] at split
    exact marked earlier mark front (List.append_inj' split rfl).1

def computedTerms (all : List Mark) : List Term := (all.filter (·.binary)).map (·.term)

theorem exists_computed_iff {all : List Mark} {t : Term} :
    (∃ u ∈ computedTerms all, u.Same t) ↔ ∃ e ∈ all, e.binary = true ∧ e.term.Same t := by
  simp [computedTerms, and_assoc]

/-- The invariant of a whole run. -/
structure Follows (known : List Term) (actions : List Action) (decisions : List Decision)
    (k : Knowledge) (meanings : List Meaning) (s : Symbolic) : Prop where
  represents : Represents known (computedTerms (marks actions decisions meanings)) s k.store k.table
  meets : List.Forall₂ (Meets known) decisions meanings
  marked : Marked (marks actions decisions meanings)

theorem computedTerms_concat (all : List Mark) (action : Action) (redundant : Bool) (m : Meaning) :
    computedTerms (all ++ [⟨action.isBinary, redundant, m.term⟩]) =
      computedTerms all ++ action.computes m := by
  cases action <;> simp [computedTerms, Action.isBinary, Action.computes]

theorem marks_concat {actions : List Action} {decisions : List Decision} {meanings : List Meaning}
    (sameLength : decisions.length = actions.length)
    (sameLength' : meanings.length = actions.length) (action : Action) (d : Decision)
    (m : Meaning) :
    marks (actions ++ [action]) (decisions ++ [d]) (meanings ++ [m]) =
      marks actions decisions meanings ++ [⟨action.isBinary, d.redundant, m.term⟩] := by
  unfold marks
  rw [List.zip_append (by omega), List.zipWith_append (by simp [sameLength, sameLength'])]
  rfl

theorem follows (shareLiterals : Bool) (actions : List Action) :
    ∃ known, Follows known actions ((Numbering.initial shareLiterals).performAll actions).1
      ((Numbering.initial shareLiterals).performAll actions).2
      (Symbolic.performAll { shareLiterals := shareLiterals } actions).1
      (Symbolic.performAll { shareLiterals := shareLiterals } actions).2 := by
  -- From the end: `Marked` looks back at the records before the last one.
  induction actions using List.reverseRecOn with
  | nil => exact ⟨[], Represents.start shareLiterals, .nil, by simp [Marked, marks]⟩
  | append_singleton actions action ih =>
      obtain ⟨known, represents, meets, marked⟩ := ih
      obtain ⟨more, after, here, redundant⟩ := represents.perform action
      have sameLength := Knowledge.length_performAll (Numbering.initial shareLiterals) actions
      have sameLength' := meets.length_eq.symm.trans sameLength
      rw [Knowledge.performAll_concat, Symbolic.performAll_concat]
      refine ⟨known ++ more, ?_, ?_, ?_⟩
      · rw [marks_concat sameLength sameLength', computedTerms_concat]
        exact after
      · exact List.rel_append (meets.imp fun _ _ earlier => earlier.append more) (.cons here .nil)
      · rw [marks_concat sameLength sameLength']
        exact marked.concat (by rw [← exists_computed_iff]; exact redundant)

/-- Numbers are terms: every number stands for a term, equal numbers stand for the same terms and
only they do, and a redundant record is a binary one whose term an earlier binary record has. -/
structure AgreeWithTerms (records : List Record) (meanings : List Meaning) : Prop where
  everyNumber : List.Forall₂ (fun r m => r.numbers.map (·.isSome) = m.terms.map (·.isSome))
    records meanings
  eq_iff_same : ∀ n t n' t', (some n, some t) ∈ numbersWithTerms records meanings →
    (some n', some t') ∈ numbersWithTerms records meanings → (n = n' ↔ t.Same t')
  redundant_iff : ∀ earlier r m later, records.zip meanings = earlier ++ (r, m) :: later →
    (r.redundant = true ↔ r.instruction.isBinary = true ∧
      ∃ e ∈ earlier, e.1.instruction.isBinary = true ∧ e.2.term.Same m.term)

theorem isSome_eq_of_rel {known : List Term} {numbers : List (Option Int)}
    {terms : List (Option Term)}
    (related : List.Forall₂ (Option.Rel (Numbered known)) numbers terms) :
    numbers.map (·.isSome) = terms.map (·.isSome) := by
  induction related with
  | nil => rfl
  | cons head _ ih => cases head <;> simp [ih]

theorem numbered_of_mem {known : List Term} {records : List Record} {meanings : List Meaning}
    (meets : List.Forall₂ (fun r m => Meets known r.toDecision m) records meanings) {n : Int}
    {t : Term} (member : (some n, some t) ∈ numbersWithTerms records meanings) :
    Numbered known n t := by
  obtain ⟨⟨r, m⟩, pair, entry⟩ := List.mem_flatMap.mp member
  have related := (List.forall₂_iff_zip.mp ((List.forall₂_iff_zip.mp meets).2 pair)).2 entry
  cases related with
  | some numbered => exact numbered

theorem marks_of_records {records : List Record} {actions : List Action} {meanings : List Meaning}
    (kinds : records.map (·.instruction.isBinary) = actions.map (·.isBinary)) :
    marks actions (records.map (·.toDecision)) meanings =
      (records.zip meanings).map fun e => ⟨e.1.instruction.isBinary, e.1.redundant, e.2.term⟩ := by
  induction records generalizing actions meanings with
  | nil => cases actions <;> rfl
  | cons r records ih =>
      cases actions with
      | nil => simp at kinds
      | cons action actions =>
          cases meanings with
          | nil => rfl
          | cons m meanings =>
              simp only [List.map_cons, List.cons.injEq] at kinds
              simp only [marks, List.map_cons, List.zip_cons_cons, List.zipWith_cons_cons]
              rw [← kinds.1]
              exact congrArg _ (ih kinds.2)

theorem Marked.redundant_iff {records : List Record} {meanings : List Meaning}
    (marked : Marked ((records.zip meanings).map fun e =>
      ⟨e.1.instruction.isBinary, e.1.redundant, e.2.term⟩))
    {earlier later : List (Record × Meaning)} {r : Record} {m : Meaning}
    (split : records.zip meanings = earlier ++ (r, m) :: later) :
    r.redundant = true ↔ r.instruction.isBinary = true ∧
      ∃ e ∈ earlier, e.1.instruction.isBinary = true ∧ e.2.term.Same m.term := by
  rw [split, List.map_append, List.map_cons] at marked
  have here := marked _ _ _ rfl
  simpa using here

theorem Numbering.OneRecordEach.kinds_eq {fn : Function} {records : List Record}
    (each : OneRecordEach fn records) :
    records.map (·.instruction.isBinary) = fn.actions.map (·.isBinary) := by
  have performs := each.performs
  generalize fn.actions = actions at performs
  clear each
  induction performs with
  | nil => rfl
  | cons performs _ ih => simp only [List.map_cons, ih, performs.isBinary_eq]

/-- Value numbers are exactly equality of terms. -/
theorem numbers_agree_with_terms (settings : Numbering.Settings) (fn : Function)
    (finished : (Numbering.ofFunction settings fn).fault = none) :
    Numbering.OneRecordEach fn (Numbering.ofFunction settings fn).numbering.records ∧
      AgreeWithTerms (Numbering.ofFunction settings fn).numbering.records
        (fn.meanings settings.shareLiterals) := by
  have each := Numbering.oneRecordEach_of_finished finished
  obtain ⟨known, represents, meets, marked⟩ := follows settings.shareLiterals fn.actions
  rw [← Numbering.decisions_of_finished finished] at meets marked
  rw [marks_of_records each.kinds_eq] at marked
  have meets := List.forall₂_map_left_iff.mp meets
  refine ⟨each, meets.imp fun _ _ related => isSome_eq_of_rel related, ?_, ?_⟩
  · intro n t n' t' here there
    have first := numbered_of_mem meets here
    have second := numbered_of_mem meets there
    constructor
    · rintro rfl
      exact first.same_term second
    · exact first.same_number represents.distinct second
  · intro earlier r m later split
    exact marked.redundant_iff split

def exchangedSums : Function :=
  let pointer : Operand := ⟨"ptr", ⟨0, .argument "p" "ptr"⟩⟩
  let incoming : Operand := ⟨"i32", ⟨1, .argument "x" "i32"⟩⟩
  let one : Operand := ⟨"i32", ⟨2, .literal 1 "i32"⟩⟩
  let store : Instruction :=
    { id := 3, opcode := .store, operands := [one, pointer], text := some "s" }
  let load : Instruction :=
    { id := 4, opcode := .load, operands := [pointer], name := some "l", text := some "l" }
  let first : Instruction :=
    { id := 5, opcode := .add, operands := [load.operand, incoming], name := some "a",
      text := some "a" }
  let second : Instruction :=
    { id := 6, opcode := .add, operands := [incoming, load.operand], name := some "b",
      text := some "b" }
  { name := "sums", blocks := [⟨"entry", [store, load, first, second]⟩] }

theorem exchangedSums_agree :
    (Numbering.ofFunction {} exchangedSums).fault = none ∧
      AgreeWithTerms (Numbering.ofFunction {} exchangedSums).numbering.records
        (exchangedSums.meanings true) ∧
      (Numbering.ofFunction {} exchangedSums).numbering.records.map (·.redundant) =
        [false, false, false, true] :=
  ⟨by decide, (numbers_agree_with_terms {} exchangedSums (by decide)).2, by decide⟩

end ValueNumbering

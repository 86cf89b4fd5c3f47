import ValueNumbering.Proofs.Assembly.Objects

/-!
The tables of names agree with the objects that have been made: what a table holds for a name is the
value that was made for it, and a name without an entry has no value. Every operation on names keeps
this.
-/

namespace ValueNumbering.Assembly

def Token.key (point : Point) : Token → Key
  | .named name => .named point.function name
  | .global name => .global name
  | .literal _ _ => .single point
  | .expression words _ => .expression words
  | .constant _ _ => .single point

/-- The form that the value of a token has. A named value has the form of its definition. -/
def Token.Allows : Token → Form → Prop
  | .named _, _ => True
  | .global name, form => ∃ type, form = .global name type
  | .literal value type, form => form = .literal value type
  | .expression words _, form => ∃ type, form = .constant words type
  | .constant text type, form => form = .constant text type

structure Coherent (objects : List Object) (point : Point) (names : Names) : Prop where
  nextId : names.nextId = objects.length
  values : ∀ name, names.values.find? name = value? objects (.named point.function name)
  globals : ∀ name, (names.globals.find? name).map (·.value) = value? objects (.global name)
  expressions : ∀ words, names.expressions.find? words = value? objects (.expression words)
  globalName : ∀ {name found}, names.globals.find? name = some found → found.name = name
  expressionForm : ∀ {words v}, names.expressions.find? words = some v →
    ∃ type, v.form = .constant words type
  before : ∀ object ∈ objects, object.key.Before point

namespace Coherent

variable {objects : List Object} {point later : Point} {names : Names}

theorem start : Coherent [] ⟨0, 0, 0⟩ {} where
  nextId := rfl
  values := by simp [value?]
  globals := by simp [value?]
  expressions := by simp [value?]
  globalName := by simp
  expressionForm := by simp
  before := by simp

theorem absent_single (coherent : Coherent objects point names) :
    value? objects (.single point) = none := by
  apply value?_eq_none_iff.mpr
  intro object member same
  have met := coherent.before object member
  rw [same] at met
  exact point.not_before_self met

theorem absent_named (coherent : Coherent objects point names) {function : Nat}
    (future : point.function < function) (name : String) :
    value? objects (.named function name) = none := by
  apply value?_eq_none_iff.mpr
  intro object member same
  have met := coherent.before object member
  rw [same] at met
  simp only [Key.Before] at met
  omega

theorem advance (coherent : Coherent objects point names) (same : later.function = point.function)
    (ahead : point.Before later) : Coherent objects later names where
  nextId := coherent.nextId
  values := same ▸ coherent.values
  globals := coherent.globals
  expressions := coherent.expressions
  globalName := coherent.globalName
  expressionForm := coherent.expressionForm
  before := fun object member => (coherent.before object member).mono ahead

theorem newFunction (coherent : Coherent objects point names) :
    Coherent objects ⟨point.function + 1, 0, 0⟩ names.newFunction where
  nextId := coherent.nextId
  values := fun name => (coherent.absent_named (Nat.lt_succ_self _) name).symm
  globals := coherent.globals
  expressions := coherent.expressions
  globalName := coherent.globalName
  expressionForm := coherent.expressionForm
  before := fun object member => (coherent.before object member).mono (Or.inl (Nat.lt_succ_self _))

theorem before_concat (coherent : Coherent objects point names) (key : Key) (met : key.Before point)
    (form : Form) : ∀ object ∈ objects ++ [⟨key, form⟩], object.key.Before point := by
  intro object member
  rcases List.mem_append.mp member with old | new
  · exact coherent.before object old
  · exact List.mem_singleton.mp new ▸ met

theorem fresh (coherent : Coherent objects point names) (form : Form) :
    Coherent (objects ++ [⟨.single point, form⟩]) point.next (names.fresh form).2 where
  nextId := by simp [Names.fresh, coherent.nextId]
  values := by
    intro name
    rw [value?_concat coherent.absent_single]
    simpa [Names.fresh, Point.next] using coherent.values name
  globals := by
    intro name
    rw [value?_concat coherent.absent_single]
    simpa [Names.fresh] using coherent.globals name
  expressions := by
    intro words
    rw [value?_concat coherent.absent_single]
    simpa [Names.fresh] using coherent.expressions words
  globalName := coherent.globalName
  expressionForm := coherent.expressionForm
  before := by
    intro object member
    rcases List.mem_append.mp member with old | new
    · exact (coherent.before object old).mono point.before_next
    · rw [List.mem_singleton.mp new]
      exact point.before_next

theorem named (coherent : Coherent objects point names) {name : String}
    (absent : names.values.find? name = none) (form : Form) (pending : Dictionary String Nat) :
    Coherent (objects ++ [⟨.named point.function name, form⟩]) point
      { names with
        nextId := names.nextId + 1
        values := names.values.insert name ⟨names.nextId, form⟩
        pending := pending } where
  nextId := by simp [coherent.nextId]
  values := by
    intro other
    rw [value?_concat (coherent.values name ▸ absent), Dictionary.find?_insert, coherent.nextId,
      coherent.values other]
    simp
  globals := by
    intro other
    rw [value?_concat (coherent.values name ▸ absent)]
    simpa using coherent.globals other
  expressions := by
    intro words
    rw [value?_concat (coherent.values name ▸ absent)]
    simpa using coherent.expressions words
  globalName := coherent.globalName
  expressionForm := coherent.expressionForm
  before := coherent.before_concat _ (Nat.le_refl _) form

theorem withPending (coherent : Coherent objects point names) (pending : Dictionary String Nat) :
    Coherent objects point { names with pending := pending } where
  nextId := coherent.nextId
  values := coherent.values
  globals := coherent.globals
  expressions := coherent.expressions
  globalName := coherent.globalName
  expressionForm := coherent.expressionForm
  before := coherent.before

theorem lookup (coherent : Coherent objects point names) (line : Nat) (name : String) :
    ∃ after, objects <+: after ∧ Coherent after point (names.lookup line name).2 ∧
      value? after (.named point.function name) = some (names.lookup line name).1 := by
  unfold Names.lookup
  cases known : names.values.find? name with
  | some found => exact ⟨objects, List.prefix_refl _, coherent, coherent.values name ▸ known⟩
  | none =>
      refine ⟨_, List.prefix_append _ _, coherent.named known _ _, ?_⟩
      rw [value?_concat (coherent.values name ▸ known)]
      simp [Names.fresh, coherent.nextId]

theorem global (coherent : Coherent objects point names) (name : String) :
    ∃ after, objects <+: after ∧ Coherent after point (names.global name).2 ∧
      value? after (.global name) = some (names.global name).1.value ∧
      (names.global name).2.globals.find? name = some (names.global name).1 := by
  unfold Names.global
  cases known : names.globals.find? name with
  | some found =>
      have value := coherent.globals name
      rw [known] at value
      exact ⟨objects, List.prefix_refl _, coherent, value.symm, known⟩
  | none =>
      have absent : value? objects (.global name) = none := by simp [← coherent.globals, known]
      let created : Global := { id := names.nextId, name := name }
      refine ⟨objects ++ [⟨.global name, created.value.form⟩], List.prefix_append _ _, ?_, ?_, ?_⟩
      · refine ⟨by simp [coherent.nextId], ?_, ?_, ?_, ?_, coherent.expressionForm,
          coherent.before_concat (.global name) trivial _⟩
        · intro other
          rw [value?_concat absent]
          simpa using coherent.values other
        · intro other
          rw [value?_concat absent, Dictionary.find?_insert, apply_ite (Option.map _),
            coherent.globals other]
          simp [created, Global.value, coherent.nextId]
        · intro words
          rw [value?_concat absent]
          simpa using coherent.expressions words
        · intro other found stored
          rw [Dictionary.find?_insert] at stored
          split at stored
          · next same => exact Option.some.inj stored ▸ same
          · exact coherent.globalName stored
      · rw [value?_concat absent]
        simp [created, Global.value, coherent.nextId]
      · simp

theorem defineGlobal (coherent : Coherent objects point names) (name initializer : String) :
    ∃ after, objects <+: after ∧ Coherent after point (names.defineGlobal name initializer) := by
  obtain ⟨after, grown, kept, -, stored⟩ := coherent.global name
  refine ⟨after, grown, kept.nextId, kept.values, ?_, kept.expressions, ?_, kept.expressionForm,
    kept.before⟩
  · intro other
    rw [← kept.globals other]
    simp only [Names.defineGlobal, Dictionary.find?_insert]
    split
    · next same =>
        subst same
        simp [stored, Global.value]
    · rfl
  · intro other found defined
    simp only [Names.defineGlobal, Dictionary.find?_insert] at defined
    split at defined
    · next same =>
        subst same
        have same := kept.globalName stored
        exact Option.some.inj defined ▸ same
    · exact kept.globalName defined

theorem expression (coherent : Coherent objects point names) (words type : String) :
    ∃ after, objects <+: after ∧ Coherent after point (names.expression words type).2 ∧
      value? after (.expression words) = some (names.expression words type).1 ∧
      ∃ type', (names.expression words type).1.form = .constant words type' := by
  unfold Names.expression
  cases known : names.expressions.find? words with
  | some found =>
      exact ⟨objects, List.prefix_refl _, coherent, coherent.expressions words ▸ known,
        coherent.expressionForm known⟩
  | none =>
      have absent : value? objects (.expression words) = none := coherent.expressions words ▸ known
      refine ⟨objects ++ [⟨.expression words, .constant words type⟩], List.prefix_append _ _, ?_,
        ?_, type, rfl⟩
      · refine ⟨by simp [Names.fresh, coherent.nextId], ?_, ?_, ?_, coherent.globalName, ?_,
          coherent.before_concat (.expression words) trivial _⟩
        · intro other
          rw [value?_concat absent]
          simpa [Names.fresh] using coherent.values other
        · intro other
          rw [value?_concat absent]
          simpa [Names.fresh] using coherent.globals other
        · intro other
          rw [value?_concat absent, ← coherent.expressions other]
          simp [Names.fresh, Dictionary.find?_insert, coherent.nextId]
        · intro other v stored
          simp only [Dictionary.find?_insert] at stored
          split at stored
          · next same =>
              cases stored
              exact ⟨type, same ▸ rfl⟩
          · exact coherent.expressionForm stored
      · rw [value?_concat absent]
        simp [Names.fresh, coherent.nextId]

theorem bind (coherent : Coherent objects point names) (line : Nat) (token : Token) :
    ∃ after, objects <+: after ∧ Coherent after point.next (names.bind line token).2 ∧
      value? after (token.key point) = some (names.bind line token).1 ∧
      token.Allows (names.bind line token).1.form := by
  cases token with
  | named name =>
      obtain ⟨after, grown, kept, value⟩ := coherent.lookup line name
      exact ⟨after, grown, kept.advance rfl point.before_next, value, trivial⟩
  | global name =>
      obtain ⟨after, grown, kept, value, stored⟩ := coherent.global name
      refine ⟨after, grown, kept.advance rfl point.before_next, value,
        (names.global name).1.type, ?_⟩
      simp [Names.bind, Global.value, kept.globalName stored]
  | literal value type =>
      refine ⟨_, List.prefix_append _ _, coherent.fresh (.literal value type), ?_, rfl⟩
      rw [Token.key, value?_concat coherent.absent_single, ← coherent.nextId]
      simp [Names.bind, Names.fresh]
  | expression words type =>
      obtain ⟨after, grown, kept, value, form⟩ := coherent.expression words type
      exact ⟨after, grown, kept.advance rfl point.before_next, value, form⟩
  | constant text type =>
      refine ⟨_, List.prefix_append _ _, coherent.fresh (.constant text type), ?_, rfl⟩
      rw [Token.key, value?_concat coherent.absent_single, ← coherent.nextId]
      simp [Names.bind, Names.fresh]

/-- The operands of an instruction take its points one after the other. -/
theorem bindAll (coherent : Coherent objects point names) (line : Nat) (tokens : List TypedToken) :
    ∃ after, objects <+: after ∧
      Coherent after { point with slot := point.slot + tokens.length }
        (names.bindAll line tokens).2 ∧
      (names.bindAll line tokens).1.length = tokens.length ∧
      ∀ p (token : TypedToken) (operand : Operand), tokens[p]? = some token →
        (names.bindAll line tokens).1[p]? = some operand → operand.type = token.type ∧
        value? after (token.token.key { point with slot := point.slot + p }) = some operand.value ∧
        token.token.Allows operand.value.form := by
  induction tokens generalizing objects point names with
  | nil => exact ⟨objects, List.prefix_refl _, coherent, rfl, by simp⟩
  | cons first rest ih =>
      obtain ⟨middle, grown, kept, value, form⟩ := coherent.bind line first.token
      obtain ⟨after, grown', kept', length, each⟩ := ih kept
      refine ⟨after, grown.trans grown', ?_,
        by simpa [Names.bindAll, Names.bindTyped] using length, ?_⟩
      · simpa [Names.bindAll, Names.bindTyped, Point.next, Nat.add_right_comm, Nat.add_assoc]
          using kept'
      · intro p token operand isToken isOperand
        cases p with
        | zero =>
            cases isToken
            cases isOperand
            exact ⟨rfl, value?_grow grown' value, form⟩
        | succ p =>
            obtain ⟨type, found, allowed⟩ := each p token operand isToken isOperand
            refine ⟨type, ?_, allowed⟩
            simpa [Point.next, Nat.add_right_comm, Nat.add_assoc] using found

end Coherent

end ValueNumbering.Assembly

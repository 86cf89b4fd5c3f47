import ValueNumbering.Proofs.Numbering.Renaming
import ValueNumbering.Proofs.Assembly.SingleAssignment

/-!
Functions of two accepted modules with the same lines, each anywhere in its module. Values that were
made for one key are partners, when the keys of the one function are moved to the other, so the two
functions are numbered alike.
-/

namespace ValueNumbering.Assembly

open Text

def Token.literal? : Token → Option Int
  | .literal value _ => some value
  | _ => none

theorem token_any_type {text : List Char} {type type' : String} {token token' : Token}
    (read : Token.read text type = .ok token) (read' : Token.read text type' = .ok token')
    (point : Point) :
    token.key point = token'.key point ∧ token.literal? = token'.literal? := by
  unfold Token.read at read read'
  split at read
  · cases read
    cases read'
    exact ⟨rfl, rfl⟩
  · cases read
    cases read'
    exact ⟨rfl, rfl⟩
  · simp only at read'
    split at read
    · next digits =>
        rw [if_pos digits] at read'
        obtain ⟨value, number, made⟩ := bind_eq_ok.mp read
        obtain ⟨value', number', made'⟩ := bind_eq_ok.mp read'
        obtain rfl := Except.ok.inj (number.symm.trans number')
        cases made
        cases made'
        exact ⟨rfl, rfl⟩
    · next notDigits =>
        rw [if_neg notDigits] at read'
        -- None of the other conditions asks for the type.
        split at read
        · next isTrue =>
            rw [if_pos isTrue] at read'
            cases read
            cases read'
            exact ⟨rfl, rfl⟩
        · next notTrue =>
            rw [if_neg notTrue] at read'
            split at read
            · next isFalse =>
                rw [if_pos isFalse] at read'
                cases read
                cases read'
                exact ⟨rfl, rfl⟩
            · next notFalse =>
                rw [if_neg notFalse] at read'
                split at read
                · next parentheses =>
                    rw [if_pos parentheses] at read'
                    cases read
                    cases read'
                    exact ⟨rfl, rfl⟩
                · next notExpression =>
                    rw [if_neg notExpression] at read'
                    cases read
                    cases read'
                    exact ⟨rfl, rfl⟩

namespace Key

def In (function : Nat) : Key → Prop
  | .named owner _ => owner = function
  | .global _ => True
  | .expression _ => True
  | .single point => point.function = function

/-- The key at the same place in another function. Globals and constant expressions have one key in
all functions. -/
def moved (function : Nat) : Key → Key
  | .named _ name => .named function name
  | .single point => .single { point with function := function }
  | key => key

variable {key other : Key} {i : Nat}

theorem in_moved (key : Key) (function : Nat) : (key.moved function).In function := by
  cases key <;> trivial

theorem moved_moved (key : Key)
    (function i : Nat) : (key.moved function).moved i = key.moved i := by
  cases key <;> rfl

theorem In.moved_eq (inside : key.In i) : key.moved i = key := by
  cases key with
  | named owner name => exact congrArg (Key.named · name) inside.symm
  | global name => rfl
  | expression words => rfl
  | single point =>
    exact congrArg (fun function => Key.single { point with function := function }) inside.symm

theorem In.moved_back (inside : key.In i) (function : Nat) : (key.moved function).moved i = key :=
  (key.moved_moved function i).trans inside.moved_eq

theorem In.moved_inj (inside : key.In i) (inside' : other.In i) {function : Nat}
    (same : key.moved function = other.moved function) : key = other := by
  rw [← inside.moved_back function, same, inside'.moved_back]

end Key

theorem token_key_in (token : Token) (point : Point) : (token.key point).In point.function := by
  cases token <;> trivial

theorem token_key_moved (token : Token) (point : Point) (function : Nat) :
    (token.key point).moved function = token.key { point with function := function } := by
  cases token <;> rfl

theorem resultKey_in (point : Point) (name : Option String) :
    (resultKey point name).In point.function := by
  cases name <;> rfl

theorem resultKey_moved (point : Point) (name : Option String) (function : Nat) :
    (resultKey point name).moved function = resultKey { point with function := function } name := by
  cases name <;> rfl

structure Unambiguous (known : Key → Value → Prop) : Prop where
  value : ∀ {key v v'}, known key v → known key v' → v = v'
  key : ∀ {key key' v}, known key v → known key' v → key = key'

def MadeFor (objects : List Object) (key : Key) (v : Value) : Prop := value? objects key = some v

theorem unambiguous_madeFor (objects : List Object) : Unambiguous (MadeFor objects) where
  value := fun made made' => Option.some.inj (made.symm.trans made')
  key := fun made made' => key_unique made made' rfl

/-- Values of a function known by the keys at the same places in another. -/
def KnownFrom (objects : List Object) (i i' : Nat) (key : Key) (v : Value) : Prop :=
  key.In i' ∧ MadeFor objects (key.moved i) v

theorem unambiguous_knownFrom (objects : List Object) (i i' : Nat) :
    Unambiguous (KnownFrom objects i i') where
  value := fun known known' => (unambiguous_madeFor objects).value known.2 known'.2
  key := fun known known' => known.1.moved_inj known'.1
    ((unambiguous_madeFor objects).key known.2 known'.2)

theorem knownFrom_moved {objects : List Object} {i : Nat} {key : Key} {v : Value}
    (inside : key.In i) (made : MadeFor objects key v) (i' : Nat) :
    KnownFrom objects i i' (key.moved i') v := by
  refine ⟨key.in_moved i', ?_⟩
  rw [inside.moved_back]
  exact made

/-- Two values for one key: one that is known by it, and one that was made for it. -/
def Partners (known : Key → Value → Prop) (objects : List Object) (v w : Value) : Prop :=
  v.literal? = w.literal? ∧ ∃ key, known key v ∧ MadeFor objects key w

theorem pairing_partners {known : Key → Value → Prop} (unambiguous : Unambiguous known)
    (objects : List Object) :
    Pairing (Partners known objects) where
  left := by
    rintro v v' w ⟨-, key, known, made⟩ ⟨-, other, known', made'⟩
    obtain rfl := (unambiguous_madeFor objects).key made made'
    exact unambiguous.value known known'
  right := by
    rintro v w w' ⟨-, key, known, made⟩ ⟨-, other, known', made'⟩
    obtain rfl := unambiguous.key known known'
    exact (unambiguous_madeFor objects).value made made'
  literal := fun partners => partners.1

theorem Denotes.literal?_eq_none {m : Module} {fn : Function} {type : String} {name : List Char}
    {v : Value} (denotes : Denotes m fn type ('%' :: name) v) : v.literal? = none := by
  generalize named : '%' :: name = text at denotes
  cases denotes with
  | argument one none => rfl
  | result one none => rfl
  | global stored isNamed => rfl
  | integer digits read form own =>
      have percent : isDecimal '%' = false := by decide
      simp [← named, isIntegerText, percent] at digits
  | isTrue form own => simp at named
  | isFalse form own => simp at named
  | expression expression form own => simp [Value.literal?, form]
  | constant notNamed notGlobal notInteger notExpression form own => simp [Value.literal?, form]

namespace Made

variable {objects objects' : List Object} {m m' : Module} {i : Nat} {fn fn' : Function}

theorem literal?_operand (made : Made objects m) (isFunction : m.functions[i]? = some fn)
    {inst : Instruction} (isInstruction : inst ∈ fn.instructions) {written : List Char}
    (used : written ∈ lineOperands (lineOf inst)) {type : String} {token : Token}
    (reads : Token.read written type = .ok token) {point : Point} (here : point.function = i)
    {v : Value} (value : value? objects (token.key point) = some v)
    (allowed : token.Allows v.form) : v.literal? = token.literal? := by
  cases readsTo_of_read reads with
  | named name =>
      rw [Token.key, here] at value
      exact (made.denotes_named isFunction isInstruction used value type).literal?_eq_none
  | global name =>
      obtain ⟨type, form⟩ := allowed
      simp [Value.literal?, form, Token.literal?]
  | expression isExpression =>
      obtain ⟨type, form⟩ := allowed
      simp [Value.literal?, form, Token.literal?]
  | _ =>
      have form : v.form = _ := allowed
      simp [Value.literal?, form, Token.literal?]

theorem operand_at (made : Made objects m) (isFunction : m.functions[i]? = some fn) {j : Nat}
    {inst : Instruction} (isAt : fn.instructions[j]? = some inst) {p : Nat} {text : List Char}
    (isText : (lineOperands (lineOf inst))[p]? = some text) {type : String} {token : Token}
    (read : Token.read text type = .ok token) {x : Operand}
    (isOperand : inst.operands[p]? = some x) :
    MadeFor objects (token.key (.operand i j p)) x.value ∧ x.value.literal? = token.literal? := by
  obtain ⟨token', read', value, allowed⟩ :=
    (made.written isFunction isAt).operand p text x isText isOperand
  obtain ⟨key, literal⟩ := token_any_type read read' (.operand i j p)
  have used := List.mem_of_getElem? isText
  have found := made.literal?_operand isFunction (List.mem_of_getElem? isAt)
    used read' rfl value allowed
  exact ⟨key ▸ value, found.trans literal.symm⟩

section Partners

variable {i' : Nat} {known : Key → Value → Prop}

theorem partners_operand (made : Made objects m) (made' : Made objects' m')
    (isFunction : m.functions[i]? = some fn) (isFunction' : m'.functions[i']? = some fn')
    (knows : ∀ {key v}, key.In i → MadeFor objects key v → known (key.moved i') v) {j : Nat}
    {inst inst' : Instruction} (isAt : fn.instructions[j]? = some inst)
    (isAt' : fn'.instructions[j]? = some inst') (lines : lineOf inst = lineOf inst') {p : Nat}
    {x y : Operand} (isOperand : inst.operands[p]? = some x)
    (isOperand' : inst'.operands[p]? = some y) :
    Partners known objects' x.value y.value := by
  have written := made.written isFunction isAt
  have inside : p < (lineOperands (lineOf inst)).length := by
    rw [written.length]
    exact (List.getElem?_eq_some_iff.mp isOperand).1
  obtain ⟨text, isText⟩ : ∃ text, (lineOperands (lineOf inst))[p]? = some text :=
    ⟨_, List.getElem?_eq_getElem inside⟩
  obtain ⟨token, read, -⟩ := written.operand p text x isText isOperand
  obtain ⟨stands, literal⟩ := made.operand_at isFunction isAt isText read isOperand
  obtain ⟨stands', literal'⟩ := made'.operand_at isFunction' isAt' (lines ▸ isText) read isOperand'
  have isKnown := knows (token_key_in token _) stands
  rw [token_key_moved] at isKnown
  exact ⟨literal.trans literal'.symm, _, isKnown, stands'⟩

theorem partners_result (made : Made objects m) (made' : Made objects' m')
    (isFunction : m.functions[i]? = some fn) (isFunction' : m'.functions[i']? = some fn')
    (knows : ∀ {key v}, key.In i → MadeFor objects key v → known (key.moved i') v) {j : Nat}
    {inst inst' : Instruction} (isAt : fn.instructions[j]? = some inst)
    (isAt' : fn'.instructions[j]? = some inst') (names : inst.name = inst'.name) :
    Partners known objects' inst.result inst'.result := by
  have filed := (made.closed i fn isFunction).filed.result j inst isAt
  have filed' := (made'.closed i' fn' isFunction').filed.result j inst' isAt'
  have isKnown := knows (resultKey_in _ _) filed
  rw [resultKey_moved, names] at isKnown
  exact ⟨rfl, _, isKnown, filed'⟩

/-- Functions with the same lines are the same up to the identity of values. -/
theorem renamed_of_known (made : Made objects m) (made' : Made objects' m')
    (isFunction : m.functions[i]? = some fn) (isFunction' : m'.functions[i']? = some fn')
    (knows : ∀ {key v}, key.In i → MadeFor objects key v → known (key.moved i') v)
    (lines : fn.instructions.map lineOf = fn'.instructions.map lineOf) (shareLiterals : Bool) :
    Renamed shareLiterals (Partners known objects') fn.instructions fn'.instructions := by
  have length : fn.instructions.length = fn'.instructions.length := by
    simpa using congrArg List.length lines
  refine .of_getElem? length fun j inst inst' isAt isAt' => ?_
  have line : lineOf inst = lineOf inst' := by simpa [isAt, isAt'] using congrArg (·[j]?) lines
  have written := made.written isFunction isAt
  have written' := made'.written isFunction' isAt'
  obtain ⟨result, mnemonic, rest, form, opcode, name⟩ := written.form
  obtain ⟨result', mnemonic', rest', form', opcode', name'⟩ := written'.form
  rw [← line, form] at form'
  cases form'
  have sameOpcode := opcode.trans opcode'.symm
  have partners := made.partners_result made' isFunction isFunction' knows isAt isAt'
    (name.trans name'.symm)
  have operands : ∀ p (x y : Operand), inst.operands[p]? = some x → inst'.operands[p]? = some y →
      Partners known objects' x.value y.value := fun p x y isOperand isOperand' =>
    made.partners_operand made' isFunction isFunction' knows isAt isAt' line isOperand isOperand'
  have count : inst.operands.length = inst'.operands.length := by
    rw [written.count, written'.count, sameOpcode]
  have last : ∀ x y, inst.operands.getLast? = some x → inst'.operands.getLast? = some y →
      Partners known objects' x.value y.value := by
    intro x y isLast isLast'
    rw [List.getLast?_eq_getElem?] at isLast isLast'
    rw [← count] at isLast'
    exact operands _ x y isLast isLast'
  refine .of_operands sameOpcode ?_ written.count partners ?_
    ⟨fun _ x y isLast isLast' => Or.inl (last x y isLast isLast'), fun _ x y isLast isLast' =>
      Or.inl (last x y isLast isLast')⟩
  · rw [Instruction.written, Instruction.written, written.text, written'.text, line]
  · refine List.forall₂_iff_get.mpr ⟨count, fun p inside inside' => .partners ?_⟩
    exact operands p _ _ (by simp [inside]) (by simp [inside'])

end Partners

theorem renamed_of_lines (made : Made objects m) (made' : Made objects' m')
    (isFunction : m.functions[i]? = some fn) (isFunction' : m'.functions[i]? = some fn')
    (lines : fn.instructions.map lineOf = fn'.instructions.map lineOf) (shareLiterals : Bool) :
    Renamed shareLiterals (Partners (MadeFor objects) objects')
      fn.instructions fn'.instructions := by
  apply made.renamed_of_known made' isFunction isFunction' _ lines shareLiterals
  intro key v inside known
  rwa [inside.moved_eq]

/-- Functions with the same lines are numbered alike, wherever they stand in their modules. -/
theorem agrees_of_lines (made : Made objects m) (made' : Made objects' m') {i' : Nat}
    (isFunction : m.functions[i]? = some fn) (isFunction' : m'.functions[i']? = some fn')
    (lines : fn.instructions.map lineOf = fn'.instructions.map lineOf)
    (settings : Numbering.Settings) :
    (Numbering.ofFunction settings fn).Agrees (Partners (KnownFrom objects i i') objects')
      (Numbering.ofFunction settings fn') := by
  have pairing := pairing_partners (unambiguous_knownFrom objects i i') objects'
  have knows : ∀ {key v}, key.In i → MadeFor objects key v →
      KnownFrom objects i i' (key.moved i') v :=
    fun inside made => knownFrom_moved inside made i'
  have renamed :=
    made.renamed_of_known made' isFunction isFunction' knows lines settings.shareLiterals
  exact Numbering.agrees_of_renamed pairing renamed settings.column

end Made

end ValueNumbering.Assembly

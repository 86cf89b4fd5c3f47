import ValueNumbering.Proofs.Assembly.Objects
import ValueNumbering.Proofs.Assembly.Coherent

/-!
When two operands are the same by their texts, and why the keys of their tokens say the same.
-/

namespace ValueNumbering.Assembly

open Text

/-- Text that is a constant expression and neither a name nor a literal. -/
structure IsConstantExpression (text : List Char) : Prop where
  parentheses : isExpression text = true
  notNamed : text.head? ≠ some '%'
  notGlobal : text.head? ≠ some '@'
  notInteger : isIntegerText text = false
  notTrue : text ≠ "true".toList
  notFalse : text ≠ "false".toList

/-- Two texts of operands, in functions with these numbers, that stand for one object wherever they
stand. -/
inductive Coreferent (function function' : Nat) : List Char → List Char → Prop
  | named (same : function = function') (name : List Char) :
      Coreferent function function' ('%' :: name) ('%' :: name)
  | global (name : List Char) : Coreferent function function' ('@' :: name) ('@' :: name)
  | expression {first second : List Char} (left : IsConstantExpression first)
      (right : IsConstantExpression second) (same : collapse first = collapse second) :
      Coreferent function function' first second

inductive ReadsTo (type : String) : List Char → Token → Prop
  | named (name : List Char) : ReadsTo type ('%' :: name) (.named (String.ofList name))
  | global (name : List Char) : ReadsTo type ('@' :: name) (.global (String.ofList name))
  | integer {text : List Char} {value : Int} (digits : isIntegerText text = true)
      (read : Integer.read text = .ok value) : ReadsTo type text (.literal value type)
  | isTrue : ReadsTo type "true".toList (.literal 1 "i1")
  | isFalse : ReadsTo type "false".toList (.literal 0 "i1")
  | expression {text : List Char} (expression : IsConstantExpression text) :
      ReadsTo type text (.expression (String.ofList (collapse text)) type)
  | constant {text : List Char} (notNamed : text.head? ≠ some '%')
      (notGlobal : text.head? ≠ some '@')
      (notInteger : isIntegerText text = false) (notExpression : isExpression text = false) :
      ReadsTo type text (.constant (String.ofList text) type)

theorem ok_of_liftInteger {α : Type} {result : Except Integer.Fault α} {a : α}
    (lifted : liftInteger result = .ok a) : result = .ok a := by
  cases result with
  | error fault => cases lifted
  | ok b => exact congrArg Except.ok (Except.ok.inj lifted)

theorem readsTo_of_read {text : List Char} {type : String} {token : Token}
    (read : Token.read text type = .ok token) : ReadsTo type text token := by
  unfold Token.read at read
  split at read
  · next name => exact Except.ok.inj read ▸ .named name
  · next name => exact Except.ok.inj read ▸ .global name
  · next notNamed notGlobal =>
      have notNamed' : text.head? ≠ some '%' := by
        intro named
        obtain ⟨name, rfl⟩ := List.head?_eq_some_iff.mp named
        exact notNamed name rfl
      have notGlobal' : text.head? ≠ some '@' := by
        intro named
        obtain ⟨name, rfl⟩ := List.head?_eq_some_iff.mp named
        exact notGlobal name rfl
      split at read
      · next digits =>
          obtain ⟨value, number, made⟩ := bind_eq_ok.mp read
          exact Except.ok.inj made ▸ .integer digits (ok_of_liftInteger number)
      · next notInteger =>
          have notInteger' := Bool.eq_false_iff.mpr notInteger
          split at read
          · next isTrue => exact Except.ok.inj read ▸ isTrue ▸ .isTrue
          · next notTrue =>
              split at read
              · next isFalse => exact Except.ok.inj read ▸ isFalse ▸ .isFalse
              · next notFalse =>
                  split at read
                  · next parentheses =>
                      exact Except.ok.inj read ▸ .expression ⟨parentheses, notNamed', notGlobal',
                        notInteger', notTrue, notFalse⟩
                  · next notExpression =>
                      exact Except.ok.inj read ▸ .constant notNamed' notGlobal' notInteger'
                        (Bool.eq_false_iff.mpr notExpression)

namespace ReadsTo

variable {type type' : String} {text text' : List Char} {token token' : Token}
    {point point' : Point}

theorem named_of_key (reads : ReadsTo type text token) {function : Nat} {name : String}
    (key : token.key point = .named function name) :
    point.function = function ∧ text = '%' :: name.toList := by
  cases reads with
  | named chars =>
      obtain ⟨here, rfl⟩ := Key.named.inj key
      exact ⟨here, by simp⟩
  | _ => cases key

theorem global_of_key (reads : ReadsTo type text token) {name : String}
    (key : token.key point = .global name) : text = '@' :: name.toList := by
  cases reads with
  | global chars =>
      obtain rfl := Key.global.inj key
      simp
  | _ => cases key

theorem expression_of_key (reads : ReadsTo type text token) {words : String}
    (key : token.key point = .expression words) :
    IsConstantExpression text ∧ String.ofList (collapse text) = words := by
  cases reads <;> simp_all [Token.key]

theorem point_of_key (reads : ReadsTo type text token) {other : Point}
    (key : token.key point = .single other) : point = other := by
  cases reads <;> simp_all [Token.key]

end ReadsTo

theorem read_of_isConstantExpression {text : List Char} (expression : IsConstantExpression text)
    (type : String) :
    Token.read text type = .ok (.expression (String.ofList (collapse text)) type) := by
  unfold Token.read
  split
  · next name => exact absurd rfl expression.notNamed
  · next name => exact absurd rfl expression.notGlobal
  · rw [if_neg (by simp [expression.notInteger]), if_neg expression.notTrue,
      if_neg expression.notFalse, if_pos expression.parentheses]

/-- Two operands have one key when they are the same operand or their texts are coreferent. -/
theorem key_eq_iff {type type' : String} {text text' : List Char} {token token' : Token}
    {point point' : Point} (first : Token.read text type = .ok token)
    (second : Token.read text' type' = .ok token') (alike : point = point' → token = token') :
    token.key point = token'.key point' ↔
      point = point' ∨ Coreferent point.function point'.function text text' := by
  have left := readsTo_of_read first
  have right := readsTo_of_read second
  constructor
  · intro same
    -- The key of the second operand says which case of coreference it is.
    cases key : token'.key point' with
    | named function name =>
        obtain ⟨here, rfl⟩ := left.named_of_key (same.trans key)
        obtain ⟨there, rfl⟩ := right.named_of_key key
        exact Or.inr (.named (here.trans there.symm) name.toList)
    | global name =>
        obtain rfl := left.global_of_key (same.trans key)
        obtain rfl := right.global_of_key key
        exact Or.inr (.global name.toList)
    | expression words =>
        obtain ⟨isFirst, here⟩ := left.expression_of_key (same.trans key)
        obtain ⟨isSecond, there⟩ := right.expression_of_key key
        exact Or.inr (.expression isFirst isSecond
          (String.ofList_injective (here.trans there.symm)))
    | single other =>
        exact Or.inl ((left.point_of_key (same.trans key)).trans (right.point_of_key key).symm)
  · rintro (same | coreferent)
    · rw [alike same, same]
    · cases coreferent with
      | named same name =>
          cases first
          cases second
          exact congrArg (Key.named · _) same
      | global name =>
          cases first
          cases second
          rfl
      | expression isFirst isSecond same =>
          rw [read_of_isConstantExpression isFirst] at first
          rw [read_of_isConstantExpression isSecond] at second
          cases first
          cases second
          exact congrArg (fun words => Key.expression (String.ofList words)) same

end ValueNumbering.Assembly

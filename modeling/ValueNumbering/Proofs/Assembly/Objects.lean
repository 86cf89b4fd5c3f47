import ValueNumbering.Proofs.Assembly.OperandTexts

/-!
The objects that a reader has made, in the order of their numbers, each with what it was made for.
Two values are one object when they were made for the same, so this list decides identity; the
tables of names are views of it.
-/

namespace ValueNumbering.Assembly

open Text

/-- A point in the reading of a module: a function, an instruction in it, and there first the result
and then the operands. -/
structure Point where
  function : Nat
  instruction : Nat := 0
  slot : Nat := 0
  deriving DecidableEq, Repr

namespace Point

def Before (first second : Point) : Prop :=
  first.function < second.function ∨ first.function = second.function ∧
    (first.instruction < second.instruction ∨
      first.instruction = second.instruction ∧ first.slot < second.slot)

def next (point : Point) : Point := { point with slot := point.slot + 1 }

def operand (function instruction operand : Nat) : Point := ⟨function, instruction, operand + 1⟩

variable {first second : Point}

theorem before_next (point : Point) : point.Before point.next :=
  Or.inr ⟨rfl, Or.inr ⟨rfl, Nat.lt_succ_self _⟩⟩

theorem Before.trans {third : Point} (left : first.Before second) (right : second.Before third) :
    first.Before third := by
  unfold Before at *
  omega

theorem not_before_self (point : Point) : ¬ point.Before point := by
  unfold Before
  omega

end Point

/-- What an object is made for. -/
inductive Key
  | named (function : Nat) (name : String)
  | global (name : String)
  | expression (words : String)
  | single (point : Point)
  deriving DecidableEq, Repr

/-- The key can be met before a point. -/
def Key.Before (point : Point) : Key → Prop
  | .named function _ => function ≤ point.function
  | .global _ => True
  | .expression _ => True
  | .single other => other.Before point

theorem Key.Before.mono {first second : Point} {key : Key} (met : key.Before first)
    (later : first.Before second) : key.Before second := by
  cases key with
  | named function name =>
      unfold Point.Before at later
      simp only [Key.Before] at met ⊢
      omega
  | global name => trivial
  | expression words => trivial
  | single point => exact Point.Before.trans met later

structure Object where
  key : Key
  form : Form
  deriving DecidableEq, Repr

def value? (objects : List Object) (key : Key) : Option Value :=
  (objects.findIdx? fun object => object.key = key).bind fun id =>
    objects[id]?.map fun object => ⟨id, object.form⟩

section Value

variable {objects : List Object} {key other : Key} {v w : Value}

theorem object_of_value (found : value? objects key = some v) :
    objects[v.id]? = some ⟨key, v.form⟩ := by
  obtain ⟨id, index, rest⟩ := Option.bind_eq_some_iff.mp found
  obtain ⟨object, stored, rfl⟩ := Option.map_eq_some_iff.mp rest
  obtain ⟨inside, isKey, -⟩ := List.findIdx?_eq_some_iff_getElem.mp index
  have same : object = objects[id] := by simpa [inside] using stored.symm
  have keyEq : object.key = key := same ▸ of_decide_eq_true isKey
  simp [stored, ← keyEq]

/-- One object is not made for two keys. -/
theorem key_unique (first : value? objects key = some v) (second : value? objects other = some w)
    (same : v.id = w.id) : key = other := by
  have left := object_of_value first
  have right := object_of_value second
  rw [same, right] at left
  exact (congrArg Object.key (Option.some.inj left)).symm

theorem value?_eq_none_iff : value? objects key = none ↔ ∀ object ∈ objects, object.key ≠ key := by
  constructor
  · intro missing object member same
    cases index : objects.findIdx? fun object => object.key = key with
    | none =>
        have unequal := List.findIdx?_eq_none_iff.mp index object member
        simp [same] at unequal
    | some id =>
        have inside := (List.findIdx?_eq_some_iff_getElem.mp index).1
        simp [value?, index, inside] at missing
  · intro absent
    have index : (objects.findIdx? fun object => object.key = key) = none :=
      List.findIdx?_eq_none_iff.mpr fun object member => decide_eq_false (absent object member)
    simp [value?, index]

theorem value?_concat (absent : value? objects key = none) (form : Form) (other : Key) :
    value? (objects ++ [⟨key, form⟩]) other =
      if key = other then some ⟨objects.length, form⟩ else value? objects other := by
  cases index : objects.findIdx? fun object => object.key = other with
  | some id =>
      have inside := (List.findIdx?_eq_some_iff_getElem.mp index).1
      have different : key ≠ other := by
        rintro rfl
        simp [value?, index, inside] at absent
      simp [value?, index, different, List.getElem?_append_left inside]
  | none =>
      by_cases same : key = other <;> simp [value?, index, same]

theorem value?_append (found : value? objects key = some v) (more : List Object) :
    value? (objects ++ more) key = some v := by
  obtain ⟨id, index, rest⟩ := Option.bind_eq_some_iff.mp found
  have inside := (List.findIdx?_eq_some_iff_getElem.mp index).1
  simpa [value?, index, List.getElem?_append_left inside] using rest

theorem value?_grow {after : List Object} (grown : objects <+: after)
    (found : value? objects key = some v) : value? after key = some v := by
  obtain ⟨more, rfl⟩ := grown
  exact value?_append found more

end Value

end ValueNumbering.Assembly

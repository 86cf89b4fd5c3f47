import Mathlib.Data.List.Nodup
import ValueNumbering.Proofs.Assembly.EqualLines
import ValueNumbering.Proofs.Building.Sessions

/-!
The values of a built function by the keys of a reader: arguments and results by their names,
globals by theirs, and a result without name by its place. A literal has no key.
-/

namespace ValueNumbering.Builder

open Assembly

def namedValues (fn : Function) : List (String × Value) :=
  fn.arguments.map (fun arg => (arg.name, arg.value)) ++
    fn.instructions.filterMap fun inst => inst.name.map fun name => (name, inst.result)

/-- The keys of values where the function is the first one of a module. -/
inductive Keyed (fn : Function) (obtained : List Operand) : Key → Value → Prop
  | named {name : String} {v : Value} (member : (name, v) ∈ namedValues fn) :
      Keyed fn obtained (.named 0 name) v
  | unnamed {i : Nat} {inst : Instruction} {v : Value} (isAt : fn.instructions[i]? = some inst)
      (noName : inst.name = none)
      (isResult : inst.result = v) : Keyed fn obtained (.single ⟨0, i, 0⟩) v
  | global {o : Operand} {name : String} {v : Value} (member : o ∈ obtained)
      (isGlobal : globalOf? o = some name)
      (isValue : o.value = v) : Keyed fn obtained (.global name) v

/-- What tells the values of a function apart. -/
structure Apart (fn : Function) (obtained : List Operand) : Prop where
  names : (definedNames fn.arguments fn.instructions).Nodup
  ids : (fn.instructions.map (·.id)).Nodup
  globals : (obtained.filterMap globalOf?).Nodup

variable {fn : Function} {obtained : List Operand} {key key' : Key} {v v' : Value}

theorem namedValues_names (fn : Function) :
    (namedValues fn).map (·.1) = definedNames fn.arguments fn.instructions := by
  simp [namedValues, definedNames, List.map_filterMap, Function.comp_def]

theorem keyed_argument {arg : Argument} (member : arg ∈ fn.arguments) :
    Keyed fn obtained (.named 0 arg.name) arg.value :=
  .named (List.mem_append_left _
    (List.mem_map_of_mem (f := fun arg : Argument => (arg.name, arg.value)) member))

theorem keyed_result {i : Nat} {inst : Instruction} (isAt : fn.instructions[i]? = some inst) :
    Keyed fn obtained (resultKey ⟨0, i, 0⟩ inst.name) inst.result := by
  cases name : inst.name with
  | none => exact .unnamed isAt name rfl
  | some text =>
      exact .named (List.mem_append_right _
        (List.mem_filterMap.mpr ⟨inst, List.mem_of_getElem? isAt, by rw [name]; rfl⟩))

def namesOf (v : Value) : Option String × Option String :=
  match v.form with
  | .argument name _ => (some name, none)
  | .result name => (name, none)
  | .global name _ => (none, some name)
  | .literal _ _ | .constant _ _ => (none, none)

def namesIn : Key → Option String × Option String
  | .named _ name => (some name, none)
  | .global name => (none, some name)
  | .expression _ | .single _ => (none, none)

theorem Keyed.names (keyed : Keyed fn obtained key v) : namesOf v = namesIn key := by
  cases keyed with
  | named member =>
      rcases List.mem_append.mp member with isArgument | isResult
      · obtain ⟨arg, -, same⟩ := List.mem_map.mp isArgument
        cases same
        rfl
      · obtain ⟨inst, -, same⟩ := List.mem_filterMap.mp isResult
        obtain ⟨name, named, same⟩ := Option.map_eq_some_iff.mp same
        cases same
        simp [namesOf, namesIn, Instruction.result, named]
  | unnamed isAt noName isResult =>
      subst isResult
      simp [namesOf, namesIn, Instruction.result, noName]
  | global member isGlobal isValue =>
      subst isValue
      unfold globalOf? at isGlobal
      split at isGlobal
      · next form =>
          cases isGlobal
          simp [namesOf, namesIn, form]
      · cases isGlobal

theorem Keyed.literal?_eq_none (keyed : Keyed fn obtained key v) : v.literal? = none := by
  have names := keyed.names
  cases keyed with
  | unnamed isAt noName isResult => exact isResult ▸ rfl
  | _ =>
      cases form : v.form <;> simp [namesOf, namesIn, form] at names <;> simp [Value.literal?, form]

theorem Keyed.ne_operand (keyed : Keyed fn obtained key v) (i p : Nat) :
    key ≠ .single (.operand 0 i p) := by
  rintro rfl
  cases keyed

theorem Apart.value_unique (apart : Apart fn obtained) (first : Keyed fn obtained key v)
    (second : Keyed fn obtained key v') :
    v = v' := by
  cases first with
  | named member =>
      cases second with
      | named member' =>
          have names : ((namedValues fn).map (·.1)).Nodup := namedValues_names fn ▸ apart.names
          exact congrArg Prod.snd (List.inj_on_of_nodup_map names member member' rfl)
  | unnamed isAt noName isResult =>
      cases second with
      | unnamed isAt' noName' isResult' =>
          cases isAt.symm.trans isAt'
          exact isResult.symm.trans isResult'
  | global member isGlobal isValue =>
      cases second with
      | global member' isGlobal' isValue' =>
          rw [← isValue, ← isValue', eq_of_key apart.globals member member' isGlobal isGlobal']

theorem Apart.key_unique (apart : Apart fn obtained) (first : Keyed fn obtained key v)
    (second : Keyed fn obtained key' v) :
    key = key' := by
  -- The names in a value leave one kind of key, and a value without names has its number.
  have names := first.names.symm.trans second.names
  cases first with
  | named member =>
      cases second with
      | named member' =>
          cases names
          rfl
      | unnamed isAt noName isResult => cases names
      | global member' isGlobal isValue => cases names
  | @unnamed i inst _ isAt noName isResult =>
      cases second with
      | named member => cases names
      | @unnamed j other _ isAt' noName' isResult' =>
          have id : inst.id = other.id := congrArg Value.id (isResult.trans isResult'.symm)
          have ids : (fn.instructions.map (·.id))[i]? = (fn.instructions.map (·.id))[j]? := by
            simp [isAt, isAt', id]
          have inside : i < (fn.instructions.map (·.id)).length := by
            simpa using (List.getElem?_eq_some_iff.mp isAt).1
          rw [(List.getElem?_inj inside apart.ids).mp ids]
      | global member' isGlobal isValue => cases names
  | global member isGlobal isValue =>
      cases second with
      | named member' => cases names
      | unnamed isAt noName isResult => cases names
      | global member' isGlobal' isValue' =>
          cases names
          rfl

theorem Apart.unambiguous (apart : Apart fn obtained) : Unambiguous (Keyed fn obtained) :=
  ⟨apart.value_unique, apart.key_unique⟩

end ValueNumbering.Builder

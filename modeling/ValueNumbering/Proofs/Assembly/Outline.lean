import ValueNumbering.Proofs.Assembly.Drafts

/-!
The outline of a text: its functions, each as the lines of its instructions. It is made from the
kinds of the lines alone, without any names, and an accepted module has exactly the instructions of
the outline.
-/

namespace ValueNumbering.Assembly

/-- The functions so far and the lines of the one that is open. -/
structure Outline where
  functions : List (List (List Char)) := []
  current : Option (List (List Char)) := none
  deriving DecidableEq, Repr

namespace Outline

def add (outline : Outline) (line : List Char) : Outline :=
  match outline.current with
  | none =>
      match TopLine.read line with
      | .ok (.definition _ _ _) => { outline with current := some [] }
      | .ok (.declaration _ _ _) => { outline with functions := outline.functions ++ [[]] }
      | _ => outline
  | some lines =>
      match BodyLine.read line with
      | .ok .close => ⟨outline.functions ++ [lines], none⟩
      | .ok (.instruction _ _ _) => { outline with current := some (lines ++ [line]) }
      | _ => outline

def ofLines (lines : List (List Char)) : Outline := lines.foldl add {}

theorem ofLines_concat (lines : List (List Char)) (line : List Char) :
    ofLines (lines ++ [line]) = (ofLines lines).add line := by
  simp [ofLines, List.foldl_append]

end Outline

def instructionLines (text : String) : List (List (List Char)) :=
  (Outline.ofLines (contentTexts text)).functions

def Reader.outline (r : Reader) : Outline :=
  ⟨r.functions.map fun fn => fn.instructions.map lineOf, r.draft.map fun draft =>
    draft.instructions.map lineOf⟩

theorem outline_step {r next : Reader} {line : Nat} {text : List Char}
    (step : Reader.Step r line text next) :
    next.outline = r.outline.add text := by
  cases step with
  | skip outside form => simp [Reader.outline, Outline.add, outside, form]
  | declare outside form => simp [Reader.outline, Outline.add, outside, form, Function.instructions]
  | global outside form => simp [Reader.outline, Outline.add, outside, form]
  | begin outside form parameters =>
      simp [Reader.outline, Outline.add, outside, form, Draft.instructions, Draft.function,
        Draft.blocks, Function.instructions]
  | close inside form settled =>
    simp [Reader.outline, Outline.add, inside, form, Draft.instructions]
  | label inside form => simp [Reader.outline, Outline.add, inside, form]
  | instruction inside form ensured targeted stated filled =>
      obtain ⟨⟨block, opened⟩, instructions, -⟩ := Draft.ensureBlock_ok ensured
      have line : lineOf _ = text :=
        congrArg lineOf filled |>.trans (by simp [lineOf, Reader.unfilled])
      simp [Reader.outline, Outline.add, inside, form, Draft.append_instructions opened,
        instructions, line]

/-- An accepted module has the instructions of the text, function by function. -/
theorem lines_of_read {text name : String} {m : Module} (accepted : read text name = .ok m) :
    m.functions.map (fun fn => fn.instructions.map lineOf) = instructionLines text := by
  obtain ⟨r, held, outside, functions, -⟩ :=
    invariant_of_read (fun lines r => r.outline = Outline.ofLines lines) rfl
      (fun lines r line text next held step =>
        by rw [outline_step step, held, Outline.ofLines_concat]) accepted
  rw [functions, instructionLines, ← held]
  rfl

theorem exists_function_of_view {α : Type} {text : String} {view : Function → α} {seen : α}
    (viewed : (read text).toOption.map (fun m => m.functions.map view) = some [seen]) :
    ∃ m fn, read text = .ok m ∧ m.functions = [fn] ∧ view fn = seen := by
  obtain ⟨m, accepted, functions⟩ := Option.map_eq_some_iff.mp viewed
  obtain ⟨fn, only, seen⟩ := List.map_eq_singleton_iff.mp functions
  exact ⟨m, fn, ok_of_toOption accepted, only, seen⟩

end ValueNumbering.Assembly

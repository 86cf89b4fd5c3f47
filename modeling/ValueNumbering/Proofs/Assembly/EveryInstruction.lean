import ValueNumbering.Proofs.Assembly.Steps

/-!
What holds of every instruction as it is filled from its line holds of every instruction of an
accepted module.
-/

namespace ValueNumbering.Assembly

/-- A property of all instructions that have been read, those of the open function included. -/
structure Reader.Every (property : Instruction → Prop) (r : Reader) : Prop where
  closed : ∀ fn ∈ r.functions, ∀ inst ∈ fn.instructions, property inst
  inside : ∀ draft, r.draft = some draft → ∀ inst ∈ draft.instructions, property inst

namespace Reader.Every

variable {property : Instruction → Prop} {r next : Reader}

theorem start (property : Instruction → Prop) : Every property {} := ⟨by simp, by simp⟩

theorem closed_concat (every : Every property r) {fn : Function}
    (last : ∀ inst ∈ fn.instructions, property inst) :
    ∀ other ∈ r.functions ++ [fn], ∀ inst ∈ other.instructions, property inst := by
  intro other member
  rcases List.mem_append.mp member with old | new
  · exact every.closed other old
  · rw [List.mem_singleton.mp new]
    exact last

theorem step (every : Every property r) {line : Nat} {text : List Char}
    (step : Step r line text next)
    (filled : ∀ names value opcode result rest statement, Statement.read line opcode rest =
      .ok statement → property (fill names line (unfilled value opcode result text) statement).1) :
    Every property next := by
  cases step with
  | skip outside form => exact every
  | declare outside form =>
      refine ⟨every.closed_concat ?_, by simp [outside]⟩
      simp [Function.instructions]
  | global outside form => exact ⟨every.closed, by simp [outside]⟩
  | begin outside form parameters =>
      refine ⟨every.closed, ?_⟩
      intro draft isDraft
      cases isDraft
      simp [Draft.instructions, Draft.function, Draft.blocks, Function.instructions]
  | close inside form settled => exact ⟨every.closed_concat (every.inside _ inside), by simp⟩
  | label inside form =>
      refine ⟨every.closed, ?_⟩
      intro draft isDraft
      cases isDraft
      rw [Draft.openBlock_instructions]
      exact every.inside _ inside
  | instruction inside form ensured targeted stated isFilled =>
      obtain ⟨⟨block, opened⟩, instructions, -⟩ := Draft.ensureBlock_ok ensured
      refine ⟨every.closed, ?_⟩
      intro draft isDraft inst isInstruction
      cases isDraft
      rw [Draft.append_instructions opened, instructions] at isInstruction
      rcases List.mem_append.mp isInstruction with old | new
      · exact every.inside _ inside inst old
      · rw [List.mem_singleton.mp new, isFilled]
        exact filled _ _ _ _ _ _ stated

end Reader.Every

theorem every_instruction_of_read (property : Instruction → Prop)
    (filled : ∀ names line value opcode result text rest statement,
      Statement.read line opcode rest = .ok statement →
      property (Reader.fill names line (Reader.unfilled value opcode result text) statement).1)
    {text name : String} {m : Module} (accepted : read text name = .ok m) :
    ∀ fn ∈ m.functions, ∀ inst ∈ fn.instructions, property inst := by
  obtain ⟨r, every, -, functions, -⟩ :=
    invariant_of_read (fun _ r => r.Every property) (Reader.Every.start property)
    (fun _ _ line text _ every step =>
      every.step step fun names value opcode result rest statement =>
      filled names line value opcode result text rest statement) accepted
  rw [functions]
  exact every.closed

end ValueNumbering.Assembly

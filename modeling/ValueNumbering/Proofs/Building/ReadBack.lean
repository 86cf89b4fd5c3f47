import ValueNumbering.Proofs.Assembly.ListingRead
import ValueNumbering.Proofs.Building.Sessions

/-!
The listing of a built function is accepted. Every instruction prints a legible line, and the names
in use are those of arguments and results.
-/

namespace ValueNumbering.Builder

open Text Assembly

variable {s : Session} {globals : List String}

theorem Builds.session {name returnType : String} {calls : List Call} {fn : Function}
    (builds : Builds name returnType calls fn) :
    ∃ s : Session, s.Sound (calls.filterMap (·.globalName?)) ∧ s.builder.build = fn := by
  obtain ⟨s, made, rfl⟩ := Option.map_eq_some_iff.mp builds.built
  have sound := (Session.Sound.start builds.name builds.returnType).run builds.wellFormed made
  exact ⟨s, by simpa using sound, rfl⟩

namespace Session.Sound

theorem headerListable (sound : s.Sound globals) : HeaderListable s.builder.build where
  signature := ⟨sound.returnType.atom.isWordText, sound.returnType.noAt, sound.name.isName⟩
  quiet := sound.returnType.atom.plain.quiet
  arguments := by
    intro arg member
    obtain ⟨isName, isType⟩ := sound.arguments arg member
    exact ⟨isType.atom.isWordText, isType.atom.uncut, isType.atom.plain.quiet, isName.isName,
      isName.slot⟩

theorem printable (sound : s.Sound globals) : ∀ o ∈ s.obtained, PrintableUse o :=
  fun o member => (sound.origin o member).printable

theorem exists_blocks (sound : s.Sound globals) : ∃ blocks : List LegibleBlock,
    blocksShown s.builder.build.blocks = LegibleBlock.shown blocks ∧
      List.Forall₂ Prints s.builder.build.instructions (blocks.flatMap (·.lines)) := by
  have labels : ∀ block ∈ s.builder.build.blocks, IsName block.name.toList :=
    fun block member => sound.labels block (List.mem_of_mem_filter member)
  refine exists_legible_blocks Prints.written labels fun inst member => ?_
  have emitted : inst ∈ s.builder.emitted := s.builder.build_instructions ▸ member
  exact (sound.emits inst emitted).prints sound.printable

theorem name_defined (sound : s.Sound globals) {inst : Instruction}
    (member : inst ∈ s.builder.build.instructions) {entry : LegibleLine}
    (prints : Prints inst entry) {name : String} (used : .named name ∈ entry.tokens) :
    name ∈ definedNames s.builder.build.arguments s.builder.build.instructions := by
  rw [build_instructions] at member
  obtain ⟨o, isOperand, spells⟩ := exists_of_mem_right prints.tokens used
  have inOperands := mem_operands_of_shown isOperand
  have origin := sound.origin o ((sound.emits inst member).operands o inOperands)
  cases origin with
  | @argument arg isArgument isName isType =>
      cases spells
      exact List.mem_append_left _ (List.mem_map_of_mem isArgument)
  | global isName => cases spells
  | literal isType truth short => cases spells
  | @result other name isInstruction named isName isType =>
      have same : other.operand.value.form = .result (some name) := by rw [← named]; rfl
      rw [same] at spells
      cases spells
      rw [definedNames, build_instructions]
      exact List.mem_append_right _ (List.mem_filterMap.mpr ⟨other, isInstruction, named⟩)

end Session.Sound

/-- A function that has been read from the lines that another one prints. -/
structure ReadBack (fn again : Function) (lines : List LegibleLine) : Prop where
  arguments : argumentsShown again.arguments = argumentsShown fn.arguments
  prints : List.Forall₂ Prints fn.instructions lines
  written : again.instructions.map (·.written) = lines.map (.ok <| String.ofList ·.text)

/-- The listing of a built function is accepted, and what is read has its arguments and its
lines. -/
theorem Session.Sound.read_listing (sound : s.Sound globals)
    (distinct : (definedNames s.builder.build.arguments s.builder.build.instructions).Nodup)
    (nonempty : s.builder.build.instructions ≠ []) :
    ∃ ls lines again table, s.builder.build.listing = .ok ls ∧
      ReadBack s.builder.build again lines ∧
      ∀ name, read (unlines ls) name =
        .ok { name := name, functions := [again], globals := table } := by
  obtain ⟨blocks, shown, prints⟩ := sound.exists_blocks
  -- Without a block the listing would be a declaration.
  have someBlocks : blocks ≠ [] := by
    rintro rfl
    exact nonempty (List.forall₂_nil_right_iff.mp prints)
  have names : s.builder.build.arguments.map (·.name) ++ blocks.flatMap (·.results) =
      definedNames s.builder.build.arguments s.builder.build.instructions := by
    rw [results_eq, results_of_legible_lines Prints.result prints, definedNames]
  have bound : ∀ name, .named name ∈ blocks.flatMap (·.tokens) →
      name ∈ s.builder.build.arguments.map (·.name) ++ blocks.flatMap (·.results) := by
    intro name used
    obtain ⟨block, isBlock, inBlock⟩ := List.mem_flatMap.mp used
    obtain ⟨entry, isEntry, inEntry⟩ := List.mem_flatMap.mp inBlock
    obtain ⟨inst, member, here⟩ :=
      exists_of_mem_right prints (List.mem_flatMap.mpr ⟨block, isBlock, isEntry⟩)
    rw [names]
    exact sound.name_defined member here inEntry
  have shows := sound.headerListable.shows
    ((LegibleBlock.shows_allListed blocks).append shows_close)
  have outside : ({} : Reader).draft = none := rfl
  obtain ⟨r, readLines, again, functions, draft, same, -⟩ :=
    leads_function outside sound.headerListable (names ▸ distinct) bound
      (contentLines (unlines _).toList) shows.contentTexts
  obtain ⟨-, -, arguments, blocksSame, -⟩ := FunctionShown.mk.inj same
  refine ⟨_, blocks.flatMap (·.lines), again, r.names.globals,
    Function.listing_definition someBlocks shown, ⟨arguments, prints, ?_⟩, fun name => ?_⟩
  · rw [written_of_blocksShown, blocksSame]
    simp [LegibleBlock.shown, List.flatMap_map, List.map_flatMap]
  · refine bind_eq_ok.mpr ⟨r, readLines, ?_⟩
    simp [Reader.finish, draft, functions]

end ValueNumbering.Builder

import ValueNumbering.Proofs.Assembly.EqualLines
import ValueNumbering.Proofs.Assembly.ListingRead

/-!
Reading the listing of an accepted module. The listing is accepted, it is listed as before, and
every function is numbered as before.
-/

namespace ValueNumbering.Assembly

open Text

/-- A module whose listing keeps its names, types and parameters apart. -/
structure Relistable (m : Module) : Prop where
  name : Unbroken m.name.toList
  types : ∀ fn ∈ m.functions, ∀ arg ∈ fn.arguments, Uncut arg.type.toList ∧ Quiet arg.type.toList
  arguments : ∀ fn ∈ m.functions, ∀ arg ∈ fn.arguments, IsName arg.name.toList
  globals : ∀ global ∈ m.globals.values, IsName global.name.toList
  results : ∀ fn ∈ m.functions, Quiet fn.returnType.toList
  params : ∀ fn ∈ m.functions, ∀ text ∈ fn.params, Quiet text.toList

instance (m : Module) : Decidable (Relistable m) :=
  decidable_of_iff
    (Unbroken m.name.toList ∧
      (∀ fn ∈ m.functions, ∀ arg ∈ fn.arguments, Uncut arg.type.toList ∧ Quiet arg.type.toList) ∧
      (∀ fn ∈ m.functions, ∀ arg ∈ fn.arguments, IsName arg.name.toList) ∧
      (∀ global ∈ m.globals.values, IsName global.name.toList) ∧
      (∀ fn ∈ m.functions, Quiet fn.returnType.toList) ∧
      ∀ fn ∈ m.functions, ∀ text ∈ fn.params, Quiet text.toList)
    ⟨fun ⟨name, types, arguments, globals, results, params⟩ =>
      ⟨name, types, arguments, globals, results, params⟩,
      fun relistable => ⟨relistable.name, relistable.types, relistable.arguments,
        relistable.globals, relistable.results, relistable.params⟩⟩

theorem name_of_read {text name : String} {m : Module} (accepted : read text name = .ok m) :
    m.name = name := by
  obtain ⟨r, -, finished⟩ := bind_eq_ok.mp accepted
  unfold Reader.finish at finished
  split at finished
  · cases finished
  · cases finished
    rfl

namespace Made

variable {objects : List Object} {m : Module}

theorem knowsGlobals (made : Made objects m) {fn : Function} (member : fn ∈ m.functions) :
    KnowsGlobals m.globals fn := by
  intro inst isInstruction name used
  obtain ⟨i, j, written⟩ := made.written_of_mem member isInstruction
  obtain ⟨p, isText⟩ := List.mem_iff_getElem?.mp used
  have inside : p < inst.operands.length := written.length ▸ (List.getElem?_eq_some_iff.mp isText).1
  obtain ⟨token, reads, value, -⟩ := written.operand p _ inst.operands[p] isText (by simp [inside])
  cases reads
  have stored := (made.globals name).trans (by simpa [Token.key] using value)
  obtain ⟨found, isFound, -⟩ := Option.map_eq_some_iff.mp stored
  simp [Dictionary.contains, isFound]

/-- Functions that are written the same keep the same lines. -/
theorem lines_of_written (made : Made objects m) {objects' : List Object} {m' : Module}
    (made' : Made objects' m') {i i' : Nat} {fn fn' : Function}
    (isFunction : m.functions[i]? = some fn) (isFunction' : m'.functions[i']? = some fn')
    (written : fn.instructions.map (·.written) = fn'.instructions.map (·.written)) :
    fn.instructions.map lineOf = fn'.instructions.map lineOf := by
  have kept : ∀ (objects : List Object) (m : Module) (i : Nat) (fn : Function), Made objects m →
      m.functions[i]? = some fn →
      fn.instructions.map (·.written) = (fn.instructions.map lineOf).map fun line =>
        .ok (String.ofList line) := by
    intro objects m i fn made isFunction
    rw [List.map_map]
    refine List.map_congr_left fun inst isInstruction => ?_
    obtain ⟨_, _, written⟩ := made.written_of_mem (List.mem_of_getElem? isFunction) isInstruction
    rw [Instruction.written, written.text]
    rfl
  rw [kept objects m i fn made isFunction, kept objects' m' i' fn' made' isFunction'] at written
  have injective : Function.Injective fun line : List Char =>
      (.ok (String.ofList line) : Except OperandFault String) :=
    fun line line' same => String.ofList_injective (Except.ok.inj same)
  exact List.map_injective_iff.mpr injective written

end Made

theorem headerListable_of_relistable {m : Module} (relistable : Relistable m) {fn : Function}
    (member : fn ∈ m.functions) (read : FunctionRead fn) : HeaderListable fn where
  signature := read.signature
  quiet := relistable.results fn member
  arguments := by
    intro arg isArgument
    have argument := read.arguments arg isArgument
    obtain ⟨uncut, quiet⟩ := relistable.types fn member arg isArgument
    exact ⟨argument.type, uncut, quiet, relistable.arguments fn member arg isArgument,
      argument.slot⟩

structure ReadFromListing (m : Module) (r : Reader) : Prop where
  outside : r.draft = none
  functions : List.Forall₂ ReadAgain m.functions r.functions
  globals : r.names.globals.values.map (·.listing) = m.globals.values.map (·.listing)

theorem leads_listing {objects : List Object} {m : Module} (made : Made objects m)
    (functionsRead : ∀ fn ∈ m.functions, FunctionRead fn) (globalsRead : GlobalsRead m.globals)
    (relistable : Relistable m) :
    ∃ lines texts, m.listing = .ok lines ∧ Shows lines texts ∧
      ({} : Reader).Leads texts (ReadFromListing m) := by
  have names : ∀ entry ∈ m.globals.entries, IsName entry.1.toList := by
    intro entry member
    rw [← globalsRead.named entry member]
    exact relistable.globals entry.2 (List.mem_map_of_mem member)
  have each : ∀ fn ∈ m.functions, ReadsBack fn := by
    intro fn member
    obtain ⟨i, isFunction⟩ := List.mem_iff_getElem?.mp member
    exact readsBack (made.closed i fn isFunction) (functionsRead fn member)
      (headerListable_of_relistable relistable member (functionsRead fn member))
        (relistable.params fn member)
  obtain ⟨texts, shows, leads⟩ := leads_globals globalsRead.named names globalsRead.initializers
  obtain ⟨lists, texts', listed, shows', leads'⟩ := leads_functions each
  have globalsListed : m.globals.values.map (·.listing) = m.globals.entries.map (·.2.listing) := by
    simp [Dictionary.values]
  let header := s!"; ModuleID = '{m.name}'"
  have isHeader : header.toList =
      ';' :: (" ModuleID = '".toList ++ (m.name.toList ++ "'".toList)) := by
    simp [header, toString]
  have unbroken : Unbroken header.toList := by
    rw [isHeader]
    have front : Unbroken (';' :: " ModuleID = '".toList) := by decide
    have back : Unbroken "'".toList := by decide
    exact front.append (relistable.name.append back)
  have empty : content header.toList = [] := by
    rw [isHeader]
    rfl
  refine ⟨header :: (m.globals.values.map (·.listing) ++ lists.flatten), texts ++ texts',
    ?_, ?_, ?_⟩
  · rw [Module.listing, listed]
    rfl
  · rw [globalsListed]
    exact .cons_empty unbroken empty (shows.append shows')
  · refine (leads {} rfl globalsRead.distinct).append ?_
    rintro next ⟨functions, draft, keys, values⟩
    have known : ∀ fn ∈ m.functions, KnowsGlobals next.names.globals fn := by
      intro fn member inst isInstruction name used
      have present := made.knowsGlobals member inst isInstruction name used
      rw [Dictionary.contains_iff_mem_keys] at present ⊢
      rw [keys]
      exact List.mem_append_right _ present
    refine (leads' next draft known).imp ?_
    rintro last ⟨again, functions', draft', globals', alike⟩
    refine ⟨draft', ?_, ?_⟩
    · rw [functions', functions]
      exact alike
    · rw [globals', values, globalsListed]
      rfl

/-- The listing of an accepted module is accepted, and what is read is listed and numbered as the
module is. -/
theorem listing_read_again {text name : String} {m : Module} (accepted : read text name = .ok m)
    (relistable : Relistable m) :
    ∃ lines again, m.listing = .ok lines ∧ read (unlines lines) name = .ok again ∧
      again.listing = .ok lines ∧
      List.Forall₂ (fun fn fn' => ∀ settings : Numbering.Settings,
        (Numbering.ofFunction settings fn).SameReport (Numbering.ofFunction settings fn'))
          m.functions again.functions := by
  obtain ⟨objects, made⟩ := made_of_read accepted
  obtain ⟨functionsRead, globalsRead⟩ := wellRead_of_read accepted
  obtain ⟨lines, texts, listed, shows, leads⟩ :=
    leads_listing made functionsRead globalsRead relistable
  obtain ⟨r, readLines, outside, functions, globals⟩ :=
    leads (contentLines (unlines lines).toList) shows.contentTexts
  let again : Module := { name := name, functions := r.functions, globals := r.names.globals }
  have accepted' : read (unlines lines) name = .ok again := by
    refine bind_eq_ok.mpr ⟨r, readLines, ?_⟩
    simp [Reader.finish, outside, again]
  obtain ⟨objects', made'⟩ := made_of_read accepted'
  refine ⟨lines, again, listed, accepted', ?_, ?_⟩
  · rw [← listed, Module.listing, Module.listing, name_of_read accepted, globals]
    refine congrArg (· >>= _) (mapM_congr_of_forall₂ (functions.flip.imp ?_))
    intro fn' fn alike
    rw [alike.listing]
  · obtain ⟨length, alike⟩ := List.forall₂_iff_get.mp functions
    refine List.forall₂_iff_get.mpr ⟨length, fun i inside inside' settings => ?_⟩
    have isFunction : m.functions[i]? = some (m.functions.get ⟨i, inside⟩) := by simp [inside]
    have isFunction' : again.functions[i]? = some (r.functions.get ⟨i, inside'⟩) := by simp [again]
    have lines := made.lines_of_written made' isFunction isFunction'
      (alike i inside inside').written.symm
    have renamed := made.renamed_of_lines made' isFunction isFunction' lines settings.shareLiterals
    have pairing := pairing_partners (unambiguous_madeFor objects) objects'
    exact (Numbering.agrees_of_renamed pairing renamed settings.column).sameReport

/-- A text with a comment, a declaration, a use before its definition, a constant expression in two
spellings, a global that is only referred to and a function without blocks. -/
def manyParts : String :=
  "declare i32 @puts(ptr byval)\n" ++
  "@msg = constant [3 x i8] c\x22a;b\x22 ;c\n" ++
  "define i32 @f(i32 %x, i32) \x7b\n" ++
  "%s = add nsw i32 %v, %x\n" ++
  "store i32 %s, ptr getelementptr (i8, ptr @msg, i64 1)\n" ++
  "%v = load i32, ptr getelementptr  (i8,  ptr @msg,  i64 1)\n" ++
  "next:\n" ++
  "store i32 %v, ptr @n\n" ++
  "ret i32 %v\n" ++
  "\x7d\n" ++
  "define void @g(i32 %y) \x7b\n" ++
  "\x7d\n"

def manyPartsListed : List String :=
  ["; ModuleID = '<stdin>'", "@msg = constant [3 x i8] c\x22a;b\x22",
    "@n = external global i32", "",
    "declare i32 @puts(ptr byval)", "", "define i32 @f(i32 %x, i32 %0) \x7b", "1:",
      "  %s = add nsw i32 %v, %x",
    "  store i32 %s, ptr getelementptr (i8, ptr @msg, i64 1)",
    "  %v = load i32, ptr getelementptr  (i8,  ptr @msg,  i64 1)", "", "next:",
      "  store i32 %v, ptr @n",
    "  ret i32 %v", "\x7d", "", "declare void @g(i32 %y)"]

theorem manyParts_read_again :
    ∃ m lines again, read manyParts = .ok m ∧ Relistable m ∧ m.listing = .ok lines ∧
    lines = manyPartsListed ∧ read (unlines lines) = .ok again ∧ again.listing = .ok lines ∧
    List.Forall₂ (fun fn fn' => ∀ settings : Numbering.Settings,
      (Numbering.ofFunction settings fn).SameReport (Numbering.ofFunction settings fn'))
        m.functions again.functions := by
  have facts : (read manyParts).toOption.bind
    (fun m => if Relistable m then m.listing.toOption else none) =
      some manyPartsListed := by
    decide +kernel
  obtain ⟨m, isModule, relisted⟩ := Option.bind_eq_some_iff.mp facts
  obtain ⟨relistable, listing⟩ := Option.ite_none_right_eq_some.mp relisted
  have accepted := ok_of_toOption isModule
  obtain ⟨lines, again, listed, accepted', listed', alike⟩ := listing_read_again accepted relistable
  have same := Except.ok.inj (listed.symm.trans (ok_of_toOption listing))
  exact ⟨m, lines, again, accepted, relistable, listed, same, accepted', listed', alike⟩

end ValueNumbering.Assembly

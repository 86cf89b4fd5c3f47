import ValueNumbering.Proofs.Building.Keys
import ValueNumbering.Proofs.Building.ReadBack

/-!
A built function and the function that is read from its listing. Values of one key are partners, and
literals are alike by their numbers only: one literal that is used twice is read as two. So the two
functions are numbered alike where no load goes through a literal that an earlier store went
through.
-/

namespace ValueNumbering

open Text Assembly

/-- No load goes through a literal that an earlier store went through. -/
def Function.LiteralsUnread (fn : Function) : Prop :=
  fn.instructions.Pairwise fun first second => first.opcode = .store → second.opcode = .load →
    ∀ p ∈ first.operands.getLast?, ∀ q ∈ second.operands.getLast?, p.value = q.value →
      p.value.literal? = none

instance (fn : Function) : Decidable fn.LiteralsUnread :=
  inferInstanceAs (Decidable (List.Pairwise _ _))

namespace Builder

variable {objects : List Object}

/-- An operand and what is read for it at a point: a partner, or an equal literal that stands for
itself. -/
inductive Meets (known : Key → Value → Prop) (objects : List Object) (point : Point) (v w : Value) :
    Prop
  | partners (pair : Partners known objects v w)
  | literal {c : Int} (left : v.literal? = some c) (right : w.literal? = some c)
      (single : MadeFor objects (.single point) w)

/-- An instruction that is read from the line of another one, at its place. -/
structure ReadFrom (known : Key → Value → Prop) (objects : List Object) (i : Nat)
    (inst inst' : Instruction) : Prop where
  opcode : inst.opcode = inst'.opcode
  name : inst.name = inst'.name
  written : inst.written = inst'.written
  length : (shownOperands inst).length = inst'.operands.length
  operand : ∀ p (x y : Operand), (shownOperands inst)[p]? = some x → inst'.operands[p]? = some y →
    Meets known objects (.operand 0 i p) x.value y.value

theorem Session.Sound.meets {s : Session} {globals : List String} (sound : s.Sound globals)
    {o : Operand} (member : o ∈ s.obtained) {token : Token} (spells : Spells o.value.form token)
    {point : Point} (here : point.function = 0) {w : Value}
    (made : MadeFor objects (token.key point) w) (literal : w.literal? = token.literal?) :
    Meets (Keyed s.builder.build s.obtained) objects point o.value w := by
  cases sound.origin o member with
  | @argument arg isArgument isName isType =>
      cases spells
      rw [Token.key, here] at made
      exact .partners ⟨literal.symm, _, keyed_argument isArgument, made⟩
  | @global id name isName =>
      cases spells
      exact .partners ⟨literal.symm, _, .global member rfl rfl, made⟩
  | @literal id value type isType truth short =>
      cases spells
      exact .literal rfl literal made
  | @result inst name isInstruction named isName isType =>
      have same : inst.operand.value.form = .result (some name) := by rw [← named]; rfl
      rw [same] at spells
      cases spells
      rw [Token.key, here] at made
      rw [← build_instructions] at isInstruction
      obtain ⟨i, isAt⟩ := List.mem_iff_getElem?.mp isInstruction
      have keyed : Keyed s.builder.build s.obtained (resultKey ⟨0, i, 0⟩ inst.name) inst.result :=
        keyed_result isAt
      rw [named] at keyed
      exact .partners ⟨literal.symm, _, keyed, made⟩

/-- Instructions at one place of a built function and of the function that is read from its
listing. -/
theorem Session.Sound.readFrom {s : Session} {globals : List String} (sound : s.Sound globals)
    {m : Module} {again : Function} (made : Made objects m)
    (isFunction : m.functions[0]? = some again) {lines : List LegibleLine}
    (back : ReadBack s.builder.build again lines) {i : Nat} {inst inst' : Instruction}
    (isAt : s.builder.build.instructions[i]? = some inst)
    (isAt' : again.instructions[i]? = some inst') :
    ReadFrom (Keyed s.builder.build s.obtained) objects i inst inst' := by
  have written := made.written isFunction isAt'
  have texts : (again.instructions.map (·.written))[i]? =
      (lines.map (.ok <| String.ofList ·.text))[i]? := by rw [back.written]
  simp only [List.getElem?_map, isAt', Option.map_some] at texts
  obtain ⟨entry, isEntry, text⟩ := Option.map_eq_some_iff.mp texts.symm
  have prints := forall₂_getElem? back.prints isAt isEntry
  have line : lineOf inst' = entry.text := by
    rw [Instruction.written, written.text] at text
    exact (String.ofList_injective (Except.ok.inj text)).symm
  obtain ⟨result, mnemonic, rest, form, opcode', name'⟩ := written.form
  obtain ⟨_, _, _, form', opcode⟩ := prints.opcode
  obtain ⟨_, _, _, _, form'', isResult, -⟩ := entry.legible
  rw [← line, form] at form' form''
  cases form'
  cases form''
  have length := prints.tokens.length_eq
  refine ⟨opcode.symm.trans opcode'.symm, ?_, prints.written.trans text, ?_,
    fun p x y isShown isOperand => ?_⟩
  · rw [name', isResult, prints.result]
  · rw [length, ← written.length, line, entry.operands.length_eq]
  · have inside : p < entry.tokens.length := length ▸ (List.getElem?_eq_some_iff.mp isShown).1
    have inside' : p < (lineOperands (lineOf inst')).length := by
      rwa [line, entry.operands.length_eq]
    obtain ⟨token, isToken⟩ : ∃ token, entry.tokens[p]? = some token :=
      ⟨_, List.getElem?_eq_getElem inside⟩
    obtain ⟨shown, isText⟩ : ∃ shown, (lineOperands (lineOf inst'))[p]? = some shown :=
      ⟨_, List.getElem?_eq_getElem inside'⟩
    obtain ⟨type, read⟩ := forall₂_getElem? entry.operands (line ▸ isText) isToken
    obtain ⟨stands, literal⟩ := made.operand_at isFunction isAt' isText read isOperand
    have isInstruction : inst ∈ s.builder.emitted :=
      build_instructions s.builder ▸ List.mem_of_getElem? isAt
    have obtained := (sound.emits inst isInstruction).operands x
      (mem_operands_of_shown (List.mem_of_getElem? isShown))
    exact sound.meets obtained (forall₂_getElem? prints.tokens isShown isToken) rfl stands literal

section Pointers

variable {known : Key → Value → Prop} {fn again : Function} {obtained : List Operand} {i p : Nat}
    {inst inst' : Instruction}
  {v w : Value}

theorem exists_store {instructions : List Instruction} {value pointer : Value}
    (member : .store value pointer ∈ instructions.filterMap (·.action?)) :
    ∃ inst ∈ instructions, inst.opcode = .store ∧ ∃ o, inst.operands.getLast? = some o ∧
      o.value = pointer := by
  obtain ⟨inst, isInstruction, found⟩ := List.mem_filterMap.mp member
  cases Instruction.action_some (Instruction.action_of_action? found) with
  | store opcode first last => exact ⟨inst, isInstruction, opcode, _, last, rfl⟩

theorem ReadFrom.last (reads : ReadFrom known objects i inst inst') (notReturn : inst.opcode ≠ .ret)
    {y : Operand} (last : inst'.operands.getLast? = some y) :
    ∃ x p, inst.operands.getLast? = some x ∧
      Meets known objects (.operand 0 i p) x.value y.value := by
  have shown : shownOperands inst = inst.operands := by simp [shownOperands, notReturn]
  have length := reads.length
  rw [shown] at length
  rw [List.getLast?_eq_getElem?, ← length] at last
  have inside := (List.getElem?_eq_some_iff.mp last).1
  obtain ⟨x, isLast⟩ : ∃ x, inst.operands[inst.operands.length - 1]? = some x :=
    ⟨_, List.getElem?_eq_getElem (by omega)⟩
  exact ⟨x, _, List.getLast?_eq_getElem?.trans isLast, reads.operand _ x y (shown ▸ isLast) last⟩

theorem Meets.partners_or_single (meets : Meets (Keyed fn obtained) objects (.operand 0 i p) v w) :
    Partners (Keyed fn obtained) objects v w ∨
      Single (Partners (Keyed fn obtained) objects) v w := by
  cases meets with
  | partners pair => exact Or.inl pair
  | literal left right single =>
      refine Or.inr ⟨?_, ?_⟩
      · rintro w' ⟨-, key, keyed, -⟩
        rw [keyed.literal?_eq_none] at left
        cases left
      · rintro v' ⟨-, key, keyed, made⟩
        exact keyed.ne_operand i p ((unambiguous_madeFor objects).key made single)

end Pointers

structure ReadAlike (fn again : Function) (obtained : List Operand) (objects : List Object) :
    Prop where
  length : fn.instructions.length = again.instructions.length
  place : ∀ i (inst inst' : Instruction), fn.instructions[i]? = some inst →
    again.instructions[i]? = some inst' →
    ReadFrom (Keyed fn obtained) objects i inst inst'
  result : ∀ i (inst' : Instruction), again.instructions[i]? = some inst' →
    MadeFor objects (resultKey ⟨0, i, 0⟩ inst'.name) inst'.result
  count : ∀ inst ∈ fn.instructions, inst.opcode ≠ .ret →
    inst.operands.length = inst.opcode.operandCount

namespace ReadAlike

variable {fn again : Function} {obtained : List Operand} {i p : Nat} {inst inst' : Instruction}
    {v w : Value}

theorem untouched (unread : fn.LiteralsUnread) (isAt : fn.instructions[i]? = some inst)
    (isLoad : inst.opcode = .load) {x : Operand} (last : inst.operands.getLast? = some x) {c : Int}
    (literal : x.value.literal? = some c) :
    Untouched x.value ((fn.instructions.take i).filterMap (·.action?)) := by
  intro value member
  obtain ⟨first, earlier, isStore, o, last', same⟩ := exists_store member
  obtain ⟨j, less, isAt'⟩ := getElem?_of_mem_take earlier
  obtain ⟨inside, rfl⟩ := List.getElem?_eq_some_iff.mp isAt
  obtain ⟨inside', rfl⟩ := List.getElem?_eq_some_iff.mp isAt'
  have noLiteral :=
    List.pairwise_iff_getElem.mp unread j i inside' inside less isStore isLoad o last' x last same
  rw [same, literal] at noLiteral
  cases noLiteral

theorem untouched_again (alike : ReadAlike fn again obtained objects)
    (single : MadeFor objects (.single (.operand 0 i p)) w) :
    Untouched w ((again.instructions.take i).filterMap (·.action?)) := by
  intro value member
  obtain ⟨store, earlier, isStore, y, last, rfl⟩ := exists_store member
  obtain ⟨j, less, isAt'⟩ := getElem?_of_mem_take earlier
  have inside : j < fn.instructions.length := alike.length ▸ (List.getElem?_eq_some_iff.mp isAt').1
  have isAt : fn.instructions[j]? = some fn.instructions[j] := List.getElem?_eq_getElem inside
  have reads := alike.place j _ store isAt isAt'
  have notReturn : fn.instructions[j].opcode ≠ .ret := by
    rw [reads.opcode, isStore]
    decide
  obtain ⟨x, q, -, meets⟩ := reads.last notReturn last
  -- The pointer of the store would have the key of the later operand, which is made at its own
  -- point.
  cases meets with
  | partners pair =>
      obtain ⟨-, key, keyed, made⟩ := pair
      exact keyed.ne_operand i p ((unambiguous_madeFor objects).key made single)
  | literal left right single' =>
      have same := Key.single.inj ((unambiguous_madeFor objects).key single' single)
      exact Nat.ne_of_lt less (congrArg Point.instruction same)

theorem pointersAlike (alike : ReadAlike fn again obtained objects) (unread : fn.LiteralsUnread)
    (isAt : fn.instructions[i]? = some inst) (isAt' : again.instructions[i]? = some inst') :
    PointersAlike (Partners (Keyed fn obtained) objects) (fn.instructions.take i)
      (again.instructions.take i) inst inst' where
  store := by
    intro isStore x y last last'
    obtain ⟨z, p, isLast, meets⟩ :=
      (alike.place i inst inst' isAt isAt').last (by simp [isStore]) last'
    cases last.symm.trans isLast
    exact meets.partners_or_single
  load := by
    intro isLoad x y last last'
    obtain ⟨z, p, isLast, meets⟩ :=
      (alike.place i inst inst' isAt isAt').last (by simp [isLoad]) last'
    cases last.symm.trans isLast
    cases meets with
    | partners pair => exact Or.inl pair
    | literal left right single =>
      exact Or.inr ⟨untouched unread isAt isLoad last left, alike.untouched_again single⟩

theorem partners_result (alike : ReadAlike fn again obtained objects)
    (isAt : fn.instructions[i]? = some inst) (isAt' : again.instructions[i]? = some inst') :
    Partners (Keyed fn obtained) objects inst.result inst'.result := by
  have made := alike.result i inst' isAt'
  rw [← (alike.place i inst inst' isAt isAt').name] at made
  exact ⟨rfl, _, keyed_result isAt, made⟩

theorem sameOperand {point : Point} (meets : Meets (Keyed fn obtained) objects point v w) :
    SameOperand true (Partners (Keyed fn obtained) objects) v w := by
  cases meets with
  | partners pair => exact .partners pair
  | literal left right single =>
    exact .literals (by simpa [sharedLiteral?] using left) (by simpa [sharedLiteral?] using right)

/-- The two functions are the same up to the identity of values. -/
theorem renamed (alike : ReadAlike fn again obtained objects) (unread : fn.LiteralsUnread) :
    Renamed true (Partners (Keyed fn obtained) objects) fn.instructions again.instructions := by
  refine .of_getElem? alike.length fun i inst inst' isAt isAt' => ?_
  have reads := alike.place i inst inst' isAt isAt'
  -- A built return has an operand, which is not read again.
  by_cases isReturn : inst.opcode = .ret
  · have unmodelled : inst.action = .ok none ∧ inst'.action = .ok none := by
      constructor <;> simp [Instruction.action, ← reads.opcode, isReturn, Opcode.isBinary]
    exact .of_unmodelled reads.opcode reads.written unmodelled.1 unmodelled.2
  · have shown : shownOperands inst = inst.operands := by simp [shownOperands, isReturn]
    have operands : List.Forall₂ (fun x y =>
        SameOperand true (Partners (Keyed fn obtained) objects) x.value y.value)
        inst.operands inst'.operands := by
      refine List.forall₂_iff_get.mpr
        ⟨shown ▸ reads.length, fun p inside inside' => sameOperand (reads.operand p _ _ ?_ ?_)⟩
      · simp [shown, inside]
      · simp [inside']
    exact .of_operands reads.opcode reads.written
      (alike.count inst (List.mem_of_getElem? isAt) isReturn)
      (alike.partners_result isAt isAt') operands (alike.pointersAlike unread isAt isAt')

end ReadAlike

def numbersOf (n : Numbering) (v : Value) : Option Int × Option Int :=
  (n.number? v, n.knowledge.store.pointerNumber v)

/-- Two functions that are numbered the same: what is reported, and the numbers that stay behind. -/
structure SameNumbers (settings : Numbering.Settings) (fn again : Function) : Prop where
  report : (Numbering.ofFunction settings fn).SameReport (Numbering.ofFunction settings again)
  arguments : fn.arguments.map (fun arg =>
    numbersOf (Numbering.ofFunction settings fn).numbering arg.value) =
    again.arguments.map fun arg =>
      numbersOf (Numbering.ofFunction settings again).numbering arg.value
  results : fn.instructions.map (fun inst =>
    numbersOf (Numbering.ofFunction settings fn).numbering inst.result) =
    again.instructions.map fun inst =>
      numbersOf (Numbering.ofFunction settings again).numbering inst.result
  literals : (Numbering.ofFunction settings fn).numbering.knowledge.store.literals =
    (Numbering.ofFunction settings again).numbering.knowledge.store.literals
  table : (Numbering.ofFunction settings fn).numbering.knowledge.table =
    (Numbering.ofFunction settings again).numbering.knowledge.table
  next : (Numbering.ofFunction settings fn).numbering.knowledge.store.next =
    (Numbering.ofFunction settings again).numbering.knowledge.store.next

theorem numbersOf_partners {ρ : Value → Value → Prop} {n n' : Numbering}
    (agrees : Knowledge.Agrees ρ n.knowledge n'.knowledge) {v w : Value} (pair : ρ v w) :
    numbersOf n v = numbersOf n' w :=
  Prod.ext (agrees.values pair) (agrees.pointers pair)

/-- The listing of a built function is accepted, and what is read is numbered as the function
itself, provided no load goes through a literal that an earlier store went through. -/
theorem built_function_read_again {name returnType : String} {calls : List Call} {fn : Function}
    (builds : Builds name returnType calls fn) (unread : fn.LiteralsUnread) :
    ∃ ls again, fn.listing = .ok ls ∧
      (∀ moduleName, ∃ m, read (unlines ls) moduleName = .ok m ∧ m.functions = [again]) ∧
      ∀ column, SameNumbers { column := column } fn again ∧
        (Line.columnInRange column = true →
          (Numbering.ofFunction { column := column } again).fault = none) := by
  obtain ⟨s, sound, rfl⟩ := builds.session
  obtain ⟨ls, lines, again, table, listed, back, accepted⟩ :=
    sound.read_listing builds.names builds.nonempty
  obtain ⟨objects, made⟩ := made_of_read (accepted name)
  have isFunction : [again][0]? = some again := rfl
  have filed := (made.closed 0 again isFunction).filed
  have apart : Apart s.builder.build s.obtained :=
    ⟨builds.names, by rw [build_instructions]; exact sound.distinct, by
      rw [sound.globals]; exact builds.globals⟩
  have length : s.builder.build.instructions.length = again.instructions.length := by
    have written := congrArg List.length back.written
    rw [List.length_map, List.length_map] at written
    rw [back.prints.length_eq, written]
  have alike : ReadAlike s.builder.build again s.obtained objects := by
    refine ⟨length, fun i inst inst' isAt isAt' => sound.readFrom made isFunction back isAt isAt',
      filed.result, ?_⟩
    rw [build_instructions]
    exact fun inst member => (sound.emits inst member).count
  have arguments : ∀ (i : Nat) (arg arg' : Argument), s.builder.build.arguments[i]? = some arg →
      again.arguments[i]? = some arg' →
      Partners (Keyed s.builder.build s.obtained) objects arg.value arg'.value := by
    intro i arg arg' isAt isAt'
    have shown : (arg'.type, arg'.name) = (arg.type, arg.name) := by
      simpa [argumentsShown, isAt, isAt'] using congrArg (·[i]?) back.arguments
    have stored := filed.argument arg' (List.mem_of_getElem? isAt')
    rw [(Prod.mk.inj shown).2] at stored
    exact ⟨rfl, _, keyed_argument (List.mem_of_getElem? isAt), stored⟩
  refine ⟨ls, again, listed, fun moduleName => ⟨_, accepted moduleName, rfl⟩, fun column =>
    ⟨?_, fun inRange => ?_⟩⟩
  · have agrees := Numbering.agrees_of_renamed (pairing_partners apart.unambiguous objects)
      (alike.renamed unread) column
    refine ⟨agrees.sameReport, ?_, ?_, agrees.knowledge.literals, agrees.knowledge.table,
      agrees.knowledge.next⟩
    · refine map_eq_map_of_getElem?
        (by simpa [argumentsShown] using (congrArg List.length back.arguments).symm) ?_
      exact fun i arg arg' isAt isAt' =>
        numbersOf_partners agrees.knowledge (arguments i arg arg' isAt isAt')
    · refine map_eq_map_of_getElem? length ?_
      exact fun i inst inst' isAt isAt' =>
        numbersOf_partners agrees.knowledge (alike.partners_result isAt isAt')
  · exact Numbering.fault_of_complete inRange fun inst member =>
      made.complete (List.mem_singleton_self again) member

def sumsInBlocks : List Call :=
  [.argument "x" "i32", .argument "flag" "i1", .global "total", .literal (-3) "i32",
    .literal 1 "i1", .alloca none "i32",
    .store 0 5, .load 5 none "i32", .binary .add 0 3 (some "sum") "i32", .block "next",
      .binary .add 3 6 none "i32",
    .binary .xor 1 4 (some "other") "i1", .store 8 2, .load 2 none "i32", .ret (some 10)]

def sumsInBlocksListed : List String :=
  ["define i32 @f(i32 %x, i1 %flag) \x7b", "entry:", "  %0 = alloca i32, align 4",
    "  store i32 %x, ptr %0, align 4",
    "  %1 = load i32, ptr %0, align 4", "  %sum = add i32 %x, -3", "", "next:",
      "  %2 = add i32 -3, %1",
    "  %other = xor i1 %flag, true", "  store i32 %2, ptr @total, align 4",
      "  %3 = load i32, ptr @total, align 4",
    "  ret i32 %3", "\x7d"]

theorem sumsInBlocks_read_again : ∃ fn again, Builds "f" "i32" sumsInBlocks fn ∧ fn.LiteralsUnread ∧
    fn.listing = .ok sumsInBlocksListed ∧
      (∃ m, read (unlines sumsInBlocksListed) = .ok m ∧ m.functions = [again]) ∧
    SameNumbers {} fn again ∧
    (Numbering.ofFunction {} fn).numbering.records.map (·.number) = [1, 1, 3, 3, 6, 3, 3] := by
  have facts : (built? "f" "i32" sumsInBlocks).any (fun fn =>
      decide ((fn.arguments.map (·.name) ++ fn.instructions.filterMap (·.name)).Nodup ∧
        fn.instructions ≠ [] ∧
        fn.LiteralsUnread ∧ (Numbering.ofFunction {} fn).numbering.records.map (·.number) =
          [1, 1, 3, 3, 6, 3, 3])) = true := by
    decide +kernel
  have listing : (built? "f" "i32" sumsInBlocks).bind (·.listing.toOption) =
      some sumsInBlocksListed := by decide +kernel
  obtain ⟨fn, built, isListing⟩ := Option.bind_eq_some_iff.mp listing
  rw [built, Option.any_some, decide_eq_true_eq] at facts
  obtain ⟨distinct, nonempty, unread, numbers⟩ := facts
  have builds : Builds "f" "i32" sumsInBlocks fn :=
    ⟨built, by decide, by decide, by decide +kernel, by decide, distinct, nonempty⟩
  obtain ⟨ls, again, listed, accepted, same⟩ := built_function_read_again builds unread
  obtain rfl := Except.ok.inj (listed.symm.trans (ok_of_toOption isListing))
  exact ⟨fn, again, builds, unread, listed, accepted _, (same 40).1, numbers⟩

def literalAsPointer : List Call :=
  [.argument "x" "i32", .literal 7 "i32", .store 0 1, .load 1 none "i32"]

def literalAsPointerListed : List String :=
  ["define void @f(i32 %x) \x7b", "entry:", "  store i32 %x, i32 7, align 4",
    "  %0 = load i32, i32 7, align 4", "\x7d"]

/-- The literal is read as two, so the load that is read finds nothing that was stored. -/
theorem literalAsPointer_not_read_again : ∃ fn m again, Builds "f" "void" literalAsPointer fn ∧
    fn.listing = .ok literalAsPointerListed ∧ read (unlines literalAsPointerListed) = .ok m ∧
      m.functions = [again] ∧
    (Numbering.ofFunction {} fn).numbering.records.map (·.toDecision) =
      [⟨1, [some 1], false⟩, ⟨1, [some 1], false⟩] ∧
    (Numbering.ofFunction {} again).numbering.records.map (·.toDecision) =
      [⟨1, [some 1], false⟩, ⟨2, [none], false⟩] := by
  have facts : (built? "f" "void" literalAsPointer).any (fun fn =>
      decide ((fn.arguments.map (·.name) ++ fn.instructions.filterMap (·.name)).Nodup ∧
        fn.instructions ≠ [] ∧
        (Numbering.ofFunction {} fn).numbering.records.map (·.toDecision) =
          [⟨1, [some 1], false⟩, ⟨1, [some 1], false⟩])) = true := by
    decide +kernel
  have listing : (built? "f" "void" literalAsPointer).bind (·.listing.toOption) =
      some literalAsPointerListed := by
    decide +kernel
  have again : (read (unlines literalAsPointerListed)).toOption.map
      (fun m => m.functions.map fun fn =>
      (Numbering.ofFunction {} fn).numbering.records.map (·.toDecision)) =
      some [[⟨1, [some 1], false⟩, ⟨2, [none], false⟩]] := by
    decide +kernel
  obtain ⟨fn, built, listed⟩ := Option.bind_eq_some_iff.mp listing
  obtain ⟨m, other, accepted, only, decided⟩ := exists_function_of_view again
  rw [built, Option.any_some, decide_eq_true_eq] at facts
  obtain ⟨distinct, nonempty, decisions⟩ := facts
  have builds : Builds "f" "void" literalAsPointer fn :=
    ⟨built, by decide, by decide, by decide +kernel, by decide, distinct, nonempty⟩
  exact ⟨fn, m, other, builds, ok_of_toOption listed, accepted, only, decisions, decided⟩

end Builder

end ValueNumbering

import ValueNumbering.Proofs.Building.Built

/-!
Sessions keep what a function needs to be printed. A call adds an argument, a value, a block or an
instruction, and none of them touches what was there before.
-/

namespace ValueNumbering.Builder

open Text Assembly

/-- What holds of a session whose calls are well formed, with the names of the globals that it has
obtained. -/
structure Session.Sound (s : Session) (globals : List String) : Prop where
  name : PlainName s.builder.name
  returnType : PlainType s.builder.returnType
  arguments : ∀ arg ∈ s.builder.arguments, PlainName arg.name ∧ PlainType arg.type
  labels : ∀ block ∈ s.builder.closed ++ [s.builder.current], IsName block.name.toList
  emits : ∀ inst ∈ s.builder.emitted, Emits s.obtained inst
  origin : ∀ o ∈ s.obtained, Origin s.builder o
  used : ∀ inst ∈ s.builder.emitted, inst.id < s.builder.nextId
  distinct : (s.builder.emitted.map (·.id)).Nodup
  globals : s.obtained.filterMap globalOf? = globals

structure Emission (b : Builder) (inst : Instruction) (b' : Builder) : Prop where
  name : b'.name = b.name
  returnType : b'.returnType = b.returnType
  arguments : b'.arguments = b.arguments
  emitted : b'.emitted = b.emitted ++ [inst]
  labels : (b'.closed ++ [b'.current]).map (·.name) = (b.closed ++ [b.current]).map (·.name)
  id : inst.id = b.nextId
  next : b'.nextId = b.nextId + 1

variable {b b' : Builder} {s : Session} {globals : List String}

theorem emission_emit (b : Builder) (inst : Instruction) :
    Emission b (b.emit inst).1 (b.emit inst).2 :=
  ⟨rfl, rfl, rfl, by simp [emitted, emit, freshId, append], by simp [emit, freshId, append],
    rfl, rfl⟩

theorem slotName_cases (b : Builder) (given : Option String) :
    ∃ slot, (b.slotName given).2 = { b with nextSlot := slot } := by
  cases given with
  | none => exact ⟨_, rfl⟩
  | some name => exact ⟨b.nextSlot, rfl⟩

theorem isName_slotName (b : Builder) {given : Option String}
    (plain : ∀ name ∈ given, PlainName name) :
    IsName (b.slotName given).1.toList := by
  cases given with
  | none =>
      have digits := isName_of_allDigits (Integer.allDigits_repr b.nextSlot)
        (Integer.repr_ne_nil b.nextSlot)
      simpa [slotName] using digits
  | some name => exact (plain name rfl).isName

theorem emission_slotName (b : Builder) (given : Option String) (inst : Instruction) :
    Emission b ((b.slotName given).2.emit inst).1 ((b.slotName given).2.emit inst).2 := by
  obtain ⟨slot, same⟩ := slotName_cases b given
  rw [same]
  obtain ⟨name, returnType, arguments, emitted, labels, id, next⟩ :=
    emission_emit { b with nextSlot := slot } inst
  exact ⟨name, returnType, arguments, emitted, labels, id, next⟩

namespace Session.Sound

theorem start {name returnType : String} (isName : PlainName name) (isType : PlainType returnType) :
    (Session.start name returnType).Sound [] where
  name := isName
  returnType := isType
  arguments := by simp [Session.start]
  labels := by
    have entry : IsName "entry".toList := .of_all (by simp) (by decide)
    simpa [Session.start] using entry
  emits := by simp [Session.start, emitted]
  origin := by simp [Session.start]
  used := by simp [Session.start, emitted]
  distinct := by simp [Session.start, emitted]
  globals := by simp [Session.start]

theorem obtained (sound : s.Sound globals) {o : Operand} (origin : Origin s.builder o) :
    Session.Sound ⟨s.builder, s.obtained ++ [o]⟩ (globals ++ (globalOf? o).toList) where
  name := sound.name
  returnType := sound.returnType
  arguments := sound.arguments
  labels := sound.labels
  emits := fun inst member => (sound.emits inst member).mono fun o here =>
    List.mem_append_left _ here
  origin := by
    intro other member
    rcases List.mem_append.mp member with old | new
    · exact sound.origin other old
    · exact List.mem_singleton.mp new ▸ origin
  used := sound.used
  distinct := sound.distinct
  globals := by
    rw [List.filterMap_append, sound.globals]
    cases here : globalOf? o <;> simp [here]

theorem emit (sound : s.Sound globals) {inst : Instruction} (emission : Emission s.builder inst b')
    (emits : Emits s.obtained inst) : Session.Sound ⟨b', s.obtained⟩ globals where
  name := emission.name ▸ sound.name
  returnType := emission.returnType ▸ sound.returnType
  arguments := emission.arguments ▸ sound.arguments
  labels := by
    have names : ∀ name ∈ (b'.closed ++ [b'.current]).map (·.name), IsName name.toList := by
      rw [emission.labels]
      exact List.forall_mem_map.mpr sound.labels
    exact fun block member => names block.name (List.mem_map_of_mem member)
  emits := by
    rw [emission.emitted]
    exact List.forall_mem_append.mpr ⟨sound.emits, List.forall_mem_singleton.mpr emits⟩
  origin := fun o member => (sound.origin o member).mono (by simp [emission.arguments]) (by
    rw [emission.emitted]
    exact fun _ here => List.mem_append_left _ here)
  used := by
    rw [emission.emitted, emission.next]
    refine List.forall_mem_append.mpr
      ⟨fun other member => Nat.lt_succ_of_lt (sound.used other member), ?_⟩
    exact List.forall_mem_singleton.mpr (emission.id ▸ Nat.lt_succ_self _)
  distinct := by
    rw [emission.emitted, List.map_append, List.map_singleton]
    refine List.nodup_append.mpr ⟨sound.distinct, by simp, ?_⟩
    rintro id member other isOther rfl
    obtain ⟨earlier, isEarlier, rfl⟩ := List.mem_map.mp member
    have less := sound.used earlier isEarlier
    rw [List.mem_singleton.mp isOther, emission.id] at less
    exact Nat.lt_irrefl _ less
  globals := sound.globals

theorem emit_result (sound : s.Sound globals) {inst : Instruction} {name : String}
    (emission : Emission s.builder inst b') (emits : Emits s.obtained inst)
    (named : inst.name = some name) (isName : IsName name.toList) (isType : PlainType inst.type) :
    Session.Sound ⟨b', s.obtained ++ [inst.operand]⟩ globals := by
  have member : inst ∈ b'.emitted := by simp [emission.emitted]
  have result := (sound.emit emission emits).obtained (.result member named isName isType)
  simpa [globalOf?, Instruction.operand, Instruction.result] using result

theorem quiet (sound : s.Sound globals) (b' : Builder) (name : b'.name = s.builder.name)
    (returnType : b'.returnType = s.builder.returnType) (emitted : b'.emitted = s.builder.emitted)
    (next : s.builder.nextId ≤ b'.nextId) (kept : ∀ arg ∈ s.builder.arguments, arg ∈ b'.arguments)
    (arguments : ∀ arg ∈ b'.arguments, PlainName arg.name ∧ PlainType arg.type)
    (labels : ∀ block ∈ b'.closed ++ [b'.current], IsName block.name.toList) :
    Session.Sound ⟨b', s.obtained⟩ globals where
  name := name ▸ sound.name
  returnType := returnType ▸ sound.returnType
  arguments := arguments
  labels := labels
  emits := emitted ▸ sound.emits
  origin := fun o member => (sound.origin o member).mono kept fun _ here => emitted ▸ here
  used := fun inst member => Nat.lt_of_lt_of_le (sound.used inst (emitted ▸ member)) next
  distinct := emitted ▸ sound.distinct
  globals := sound.globals

theorem argument (sound : s.Sound globals) {name type : String} (isName : PlainName name)
    (isType : PlainType type) :
    Session.Sound ⟨(s.builder.argument name type).2,
      s.obtained ++ [(s.builder.argument name type).1.operand]⟩ globals := by
  have added : (s.builder.argument name type).2.arguments =
      s.builder.arguments ++ [(s.builder.argument name type).1] := rfl
  have plain : ∀ arg ∈ (s.builder.argument name type).2.arguments, PlainName arg.name ∧
      PlainType arg.type := by
    rw [added]
    exact List.forall_mem_append.mpr
      ⟨sound.arguments, List.forall_mem_singleton.mpr ⟨isName, isType⟩⟩
  have quiet := sound.quiet (s.builder.argument name type).2 rfl rfl rfl (Nat.le_succ _)
    (fun arg member => added ▸ List.mem_append_left _ member) plain sound.labels
  have origin : Origin (s.builder.argument name type).2 (s.builder.argument name type).1.operand :=
    .argument (by simp [added]) isName isType
  simpa [globalOf?, Argument.operand, Argument.value] using quiet.obtained origin

theorem value (sound : s.Sound globals) {form : Form}
    (origin : Origin (s.builder.value form).2 (s.builder.value form).1) :
    Session.Sound ⟨(s.builder.value form).2, s.obtained ++ [(s.builder.value form).1]⟩
      (globals ++ (globalOf? (s.builder.value form).1).toList) := by
  have quiet := sound.quiet (s.builder.value form).2 rfl rfl rfl (Nat.le_succ _)
    (fun _ member => member) sound.arguments
    sound.labels
  exact quiet.obtained origin

theorem block (sound : s.Sound globals) {name : String} (isName : IsName name.toList) :
    Session.Sound ⟨s.builder.block name, s.obtained⟩ globals := by
  have closed : ∀ block ∈ s.builder.closed, IsName block.name.toList :=
    fun block member => sound.labels block (List.mem_append_left _ member)
  unfold Builder.block
  split
  · refine sound.quiet _ rfl rfl ?_ (Nat.le_refl _) (fun _ member => member) sound.arguments ?_
    · simp [emitted]
    · exact List.forall_mem_append.mpr ⟨closed, List.forall_mem_singleton.mpr isName⟩
  · refine sound.quiet _ rfl rfl ?_ (Nat.le_refl _) (fun _ member => member) sound.arguments ?_
    · simp [emitted]
    · exact List.forall_mem_append.mpr ⟨sound.labels, List.forall_mem_singleton.mpr isName⟩

theorem noGlobal (sound : s.Sound globals) : s.Sound (globals ++ []) := by rwa [List.append_nil]

/-- One call keeps a session sound. -/
theorem call (sound : s.Sound globals) {next : Session} {call : Call} (wellFormed : call.WellFormed)
    (made : s.call call = some next) : next.Sound (globals ++ call.globalName?.toList) := by
  cases call with
  | argument name type =>
      obtain rfl := Option.some.inj made
      exact (sound.argument wellFormed.1 wellFormed.2).noGlobal
  | literal value type =>
      obtain rfl := Option.some.inj made
      exact sound.value (.literal wellFormed.1 wellFormed.2.1 wellFormed.2.2)
  | global name =>
      obtain rfl := Option.some.inj made
      exact sound.value (.global wellFormed)
  | block name =>
      obtain rfl := Option.some.inj made
      exact (sound.block wellFormed.isName).noGlobal
  | alloca name type =>
      let result := s.builder.alloca name (some type)
      obtain rfl : ⟨result.2, s.obtained ++ [result.1.operand]⟩ = next := Option.some.inj made
      have isName := isName_slotName s.builder wellFormed.1
      have pointer : PlainType "ptr" := by decide
      have emits : Emits s.obtained result.1 := .alloca isName wellFormed.2
      exact (sound.emit_result (emission_slotName s.builder name _)
        emits rfl isName pointer).noGlobal
  | store value pointer =>
      obtain ⟨v, isValue, rest⟩ := Option.bind_eq_some_iff.mp made
      obtain ⟨p, isPointer, last⟩ := Option.bind_eq_some_iff.mp rest
      obtain rfl := Option.some.inj last
      have emits : Emits s.obtained (s.builder.store v p).1 :=
        .store (List.mem_of_getElem? isValue) (List.mem_of_getElem? isPointer)
      exact (sound.emit (emission_emit s.builder _) emits).noGlobal
  | load pointer name type =>
      obtain ⟨p, isPointer, last⟩ := Option.bind_eq_some_iff.mp made
      let result := s.builder.load p name type
      obtain rfl : ⟨result.2, s.obtained ++ [result.1.operand]⟩ = next := Option.some.inj last
      have isName := isName_slotName s.builder wellFormed.1
      have emits : Emits s.obtained result.1 :=
        .load isName wellFormed.2 (List.mem_of_getElem? isPointer)
      exact (sound.emit_result (emission_slotName s.builder name _)
        emits rfl isName wellFormed.2).noGlobal
  | binary opcode lhs rhs name type =>
      obtain ⟨left, isLeft, rest⟩ := Option.bind_eq_some_iff.mp made
      obtain ⟨right, isRight, last⟩ := Option.bind_eq_some_iff.mp rest
      let result := s.builder.binary opcode left right name type
      obtain rfl : ⟨result.2, s.obtained ++ [result.1.operand]⟩ = next := Option.some.inj last
      obtain ⟨isBinary, plain, isType⟩ := wellFormed
      have isName := isName_slotName s.builder plain
      have emits : Emits s.obtained result.1 :=
        .binary isBinary isName isType (List.mem_of_getElem? isLeft) (List.mem_of_getElem? isRight)
      exact (sound.emit_result (emission_slotName s.builder name _)
        emits rfl isName isType).noGlobal
  | ret value =>
      cases value with
      | none =>
          obtain rfl := Option.some.inj made
          have known : ∀ o ∈ (none : Option Operand), o ∈ s.obtained := by simp
          have emits : Emits s.obtained (s.builder.ret none).1 := .ret known
          exact (sound.emit (emission_emit s.builder _) emits).noGlobal
      | some value =>
          obtain ⟨v, isValue, last⟩ := Option.bind_eq_some_iff.mp made
          obtain rfl := Option.some.inj last
          have known : ∀ o ∈ some v, o ∈ s.obtained := by simpa using List.mem_of_getElem? isValue
          have emits : Emits s.obtained (s.builder.ret (some v)).1 := .ret known
          exact (sound.emit (emission_emit s.builder _) emits).noGlobal

theorem run (sound : s.Sound globals) {calls : List Call}
    (wellFormed : ∀ call ∈ calls, call.WellFormed) {last : Session}
    (made : s.run calls = some last) : last.Sound (globals ++ calls.filterMap (·.globalName?)) := by
  induction calls generalizing s globals with
  | nil =>
      obtain rfl := Option.some.inj made
      simpa using sound
  | cons call rest ih =>
      obtain ⟨next, isNext, others⟩ := Option.bind_eq_some_iff.mp made
      have first := sound.call (wellFormed call (List.mem_cons_self ..)) isNext
      have whole :=
        ih first (fun other member => wellFormed other (List.mem_cons_of_mem _ member)) others
      cases name : call.globalName? with
      | none => simpa [name] using whole
      | some name => simpa [name] using whole

end Session.Sound

end ValueNumbering.Builder

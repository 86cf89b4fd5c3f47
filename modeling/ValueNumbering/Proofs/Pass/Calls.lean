import ValueNumbering.Pass.Manager

/-!
The calls of a run. Each function with a body goes through the enabled stages in their order, before
the next function does. A run in which every call succeeds writes what the calls write, one after
the other, and leaves valid what all of them leave valid.
-/

namespace ValueNumbering

def bodies (functions : List Function) : List Function :=
  functions.filter fun fn => !fn.isDeclaration

theorem bodies_cons_declaration {fn : Function} (declared : fn.isDeclaration = true)
    (rest : List Function) :
    bodies (fn :: rest) = bodies rest := by
  simp [bodies, declared]

theorem bodies_cons_body {fn : Function} (defined : fn.isDeclaration = false)
    (rest : List Function) :
    bodies (fn :: rest) = fn :: bodies rest := by
  simp [bodies, defined]

namespace Manager

variable {σ : Type}

/-- A function handed to a pass: the stage in the state that it has then, and the entry for the
pass. -/
structure Call (σ : Type) where
  stage : Stage σ
  config : PassConfig
  fn : Function

namespace Call

def visit (call : Call σ) : Visit σ := call.stage.pass.visit call.fn call.config call.stage.state

def Succeeds (call : Call σ) : Prop := ∃ preserved, call.visit.result = .ok preserved

def written (calls : List (Call σ)) : String := String.join (calls.map (·.visit.diagnostics))

def LeaveValid (calls : List (Call σ)) (preserved : Preserved) : Prop :=
  preserved = .all ↔ ∀ call ∈ calls, call.visit.result = .ok .all

theorem written_cons (call : Call σ) (calls : List (Call σ)) :
    written (call :: calls) = call.visit.diagnostics ++ written calls := by
  rw [written, List.map_cons, String.join_cons, written]

theorem written_append (calls more : List (Call σ)) :
    written (calls ++ more) = written calls ++ written more := by
  rw [written, List.map_append, String.join_append, written, written]

theorem LeaveValid.cons {call : Call σ} {calls : List (Call σ)} {first preserved : Preserved}
    (succeeds : call.visit.result = .ok first) (valid : LeaveValid calls preserved) :
    LeaveValid (call :: calls) (first.intersect preserved) := by
  unfold LeaveValid at valid ⊢
  rw [Preserved.intersect_eq_all_iff, valid, List.forall_mem_cons, succeeds, Except.ok.injEq]

theorem LeaveValid.append {calls more : List (Call σ)} {first second : Preserved}
    (left : LeaveValid calls first) (right : LeaveValid more second) :
    LeaveValid (calls ++ more) (first.intersect second) := by
  unfold LeaveValid at left right ⊢
  rw [Preserved.intersect_eq_all_iff, left, right, List.forall_mem_append]

end Call

section

variable (config : Dictionary Text.CodePoints PassConfig)

def enabled (stage : Stage σ) : Bool := (configFor config stage.pass).isEnabled

def called (fn : Function) (stage : Stage σ) : Stage σ :=
  if enabled config stage then
    { stage with state := (Call.mk stage (configFor config stage.pass) fn).visit.state }
  else stage

def through (fn : Function) (stage : Stage σ) : Stage σ :=
  countFunction config fn (called config fn stage)

def callsFor (stages : List (Stage σ)) (fn : Function) : List (Call σ) :=
  (stages.filter (enabled config)).map fun stage => ⟨stage, configFor config stage.pass, fn⟩

def callsForAll (stages : List (Stage σ)) : List Function → List (Call σ)
  | [] => []
  | fn :: rest => callsFor config stages fn ++ callsForAll (stages.map (through config fn)) rest

def throughAll (fns : List Function) (stage : Stage σ) : Stage σ :=
  fns.foldl (fun stage fn => through config fn stage) stage

end

section

variable {config : Dictionary Text.CodePoints PassConfig} {stage : Stage σ}
    {stages : List (Stage σ)} {fn : Function}

theorem callsFor_cons_enabled (isEnabled : enabled config stage = true) (stages : List (Stage σ))
    (fn : Function) :
    callsFor config (stage :: stages) fn =
      ⟨stage, configFor config stage.pass, fn⟩ :: callsFor config stages fn := by
  rw [callsFor, List.filter_cons_of_pos isEnabled, List.map_cons, callsFor]

theorem callsFor_cons_disabled (isDisabled : enabled config stage = false) (stages : List (Stage σ))
    (fn : Function) :
    callsFor config (stage :: stages) fn = callsFor config stages fn := by
  rw [callsFor, List.filter_cons_of_neg (by simp [isDisabled]), callsFor]

@[simp] theorem pass_called (fn : Function) (stage : Stage σ) :
    (called config fn stage).pass = stage.pass := by
  unfold called
  split <;> rfl

@[simp] theorem pass_countFunction (fn : Function) (stage : Stage σ) :
    (countFunction config fn stage).pass = stage.pass := by
  unfold countFunction
  split <;> rfl

@[simp] theorem pass_through (fn : Function) (stage : Stage σ) :
    (through config fn stage).pass = stage.pass := by
  rw [through, pass_countFunction, pass_called]

theorem enabled_eq_of_pass {other : Stage σ} (same : other.pass = stage.pass) :
    enabled config other = enabled config stage := by
  rw [enabled, enabled, same]

theorem callsForAll_nil (config : Dictionary Text.CodePoints PassConfig) (fns : List Function) :
    callsForAll config ([] : List (Stage σ)) fns = [] := by
  induction fns with
  | nil => rfl
  | cons fn rest ih => exact ih

/-- A function goes through the stages: one call for each that is enabled. -/
theorem runStages_of_succeeds (succeed : ∀ call ∈ callsFor config stages fn, call.Succeeds) :
    ∃ preserved, Call.LeaveValid (callsFor config stages fn) preserved ∧
      runStages config fn stages = (stages.map (called config fn),
        Call.written (callsFor config stages fn), .ok preserved) := by
  induction stages with
  | nil => exact ⟨.all, by simp [Call.LeaveValid, callsFor], rfl⟩
  | cons stage rest ih =>
      cases isEnabled : enabled config stage with
      | false =>
          rw [callsFor_cons_disabled isEnabled] at succeed ⊢
          obtain ⟨preserved, valid, ran⟩ := ih succeed
          have passed : called config fn stage = stage := by simp [called, isEnabled]
          rw [enabled] at isEnabled
          refine ⟨preserved, valid, ?_⟩
          simp [runStages, isEnabled, ran, passed]
      | true =>
          rw [callsFor_cons_enabled isEnabled] at succeed ⊢
          obtain ⟨first, ok⟩ := succeed _ (List.mem_cons_self ..)
          obtain ⟨preserved, valid, ran⟩ :=
            ih fun call member => succeed call (List.mem_cons_of_mem _ member)
          have seen : called config fn stage =
              { stage with state :=
                  (stage.pass.visit fn (configFor config stage.pass) stage.state).state } := by
            simp [called, isEnabled, Call.visit]
          have succeeded : (stage.pass.visit fn (configFor config stage.pass) stage.state).result =
              .ok first := ok
          rw [enabled] at isEnabled
          refine ⟨first.intersect preserved, valid.cons ok, ?_⟩
          simp [runStages, isEnabled, succeeded, ran, seen, Call.written_cons, Call.visit,
            Except.map]

theorem runFunctions_of_succeeds {m : Manager σ} {functions : List Function}
    (succeed : ∀ call ∈ callsForAll m.config m.stages (bodies functions), call.Succeeds) :
    ∃ preserved, Call.LeaveValid (callsForAll m.config m.stages (bodies functions)) preserved ∧
      runFunctions m functions =
        { manager := { m with stages := m.stages.map (throughAll m.config (bodies functions)) },
          diagnostics := Call.written (callsForAll m.config m.stages (bodies functions)),
          result := .ok preserved } := by
  induction functions generalizing m with
  | nil =>
      refine ⟨.all, by simp [Call.LeaveValid, bodies, callsForAll], ?_⟩
      have same : m.stages.map (throughAll m.config []) = m.stages := List.map_id _
      rw [bodies, List.filter_nil, same]
      rfl
  | cons fn rest ih =>
      cases declared : fn.isDeclaration with
      | true =>
          rw [bodies_cons_declaration declared] at succeed ⊢
          obtain ⟨preserved, valid, ran⟩ := ih succeed
          exact ⟨preserved, valid, by rw [runFunctions, if_pos declared, ran]⟩
      | false =>
          rw [bodies_cons_body declared, callsForAll] at succeed ⊢
          obtain ⟨here, later⟩ := List.forall_mem_append.mp succeed
          obtain ⟨first, valid, ran⟩ := runStages_of_succeeds here
          obtain ⟨preserved, others, ranOn⟩ :=
            ih (m := { m with stages := m.stages.map (through m.config fn) }) later
          refine ⟨first.intersect preserved, valid.append others, ?_⟩
          have counted : (m.stages.map (called m.config fn)).map (countFunction m.config fn) =
              m.stages.map (through m.config fn) := List.map_map
          rw [runFunctions, if_neg (by simp [declared])]
          simp only [runOnFunction, ran, counted, ranOn, Except.map, Call.written_append,
            List.map_map]
          rfl

def OptionsAreObjects (config : Dictionary Text.CodePoints PassConfig) (stages : List (Stage σ)) :
    Prop :=
  ∀ stage ∈ stages, enabled config stage = true →
    ∃ members, (configFor config stage.pass).options = .obj members

theorem OptionsAreObjects.of_passes {others : List (Stage σ)}
    (objects : OptionsAreObjects config stages) (same : others.map (·.pass) = stages.map (·.pass)) :
    OptionsAreObjects config others := by
  intro other member isEnabled
  have isPass : other.pass ∈ stages.map (·.pass) := same ▸ List.mem_map_of_mem member
  obtain ⟨stage, inside, samePass⟩ := List.mem_map.mp isPass
  rw [← samePass]
  exact objects stage inside ((enabled_eq_of_pass samePass).trans isEnabled)

theorem report_complete (objects : OptionsAreObjects config stages) :
    (report config stages).2 = none := by
  induction stages with
  | nil => rfl
  | cons stage rest ih =>
      obtain ⟨here, later⟩ := List.forall_mem_cons.mp objects
      have complete : (stageReport config stage).2 = none := by
        simp only [stageReport]
        split
        · next isEnabled =>
            obtain ⟨members, isObject⟩ := here isEnabled
            rw [isObject, Json.membersFor]
        · rfl
      rcases reported : stageReport config stage with ⟨text, fault⟩
      rw [reported] at complete
      obtain rfl : fault = none := complete
      simp [report, reported, ih later]

end

def calls (m : Manager σ) (module : Module) : List (Call σ) :=
  callsForAll m.config (m.stages.map resetMetrics) (bodies module.functions)

/-- A run over a module whose functions all went through the stages. -/
inductive Ended (m : Manager σ) (done : Execution σ) : Execution σ → Prop
  | silent (off : m.printMetrics = false) : Ended m done done
  | reported {texts : List Text.CodePoints} (on : m.printMetrics = true)
      (complete : report m.config done.manager.stages = (texts, none)) :
      Ended m done { done with printed := texts }
  | cut {texts : List Text.CodePoints} {fault : ConfigFault} (on : m.printMetrics = true)
      (malformed : report m.config done.manager.stages = (texts, some fault)) :
      Ended m done { done with printed := texts, result := .error (.config fault) }

theorem ended_of_result {m : Manager σ} {module : Module} {done : Execution σ}
    {preserved : Preserved}
    (ran : runFunctions { m with stages := m.stages.map resetMetrics } module.functions = done)
    (succeeded : done.result = .ok preserved) : Ended m done (m.run module) := by
  simp only [run, ran]
  split
  · next fault failed => exact nomatch failed.symm.trans succeeded
  · split
    · next on =>
        split
        · next texts fault malformed => exact .cut on malformed
        · next texts complete => exact .reported on complete
    · next off => exact .silent (Bool.eq_false_iff.mpr off)

/-- What a run over a module comes to. -/
structure ComesTo (m : Manager σ) (module : Module) (preserved : Preserved) (done : Execution σ) :
    Prop where
  valid : Call.LeaveValid (m.calls module) preserved
  stages : done.manager.stages = m.stages.map fun stage =>
    throughAll m.config (bodies module.functions) (resetMetrics stage)
  diagnostics : done.diagnostics = Call.written (m.calls module)
  result : (m.printMetrics = true → OptionsAreObjects m.config m.stages) →
    done.result = .ok preserved
  printed : done.printed = if m.printMetrics then (report m.config done.manager.stages).1 else []

theorem pass_throughAll {config : Dictionary Text.CodePoints PassConfig} (fns : List Function)
    (stage : Stage σ) :
    (throughAll config fns stage).pass = stage.pass := by
  induction fns generalizing stage with
  | nil => rfl
  | cons fn rest ih => exact (ih _).trans (pass_through fn stage)

theorem run_of_succeeds {m : Manager σ} {module : Module}
    (succeed : ∀ call ∈ m.calls module, call.Succeeds) :
    ∃ preserved, ComesTo m module preserved (m.run module) := by
  obtain ⟨preserved, valid, ran⟩ :=
    runFunctions_of_succeeds (m := { m with stages := m.stages.map resetMetrics }) succeed
  have stages : (m.stages.map resetMetrics).map (throughAll m.config (bodies module.functions)) =
      m.stages.map fun stage => throughAll m.config (bodies module.functions)
        (resetMetrics stage) := List.map_map
  have passes : ((m.stages.map resetMetrics).map
      (throughAll m.config (bodies module.functions))).map (·.pass) =
      m.stages.map (·.pass) := by
    rw [stages, List.map_map]
    exact List.map_congr_left fun stage _ => pass_throughAll _ (resetMetrics stage)
  have ended := ended_of_result ran rfl
  refine ⟨preserved, ?_⟩
  generalize m.run module = outcome at ended ⊢
  cases ended with
  | silent off => exact ⟨valid, stages, rfl, fun _ => rfl, by simp [off]⟩
  | reported on complete =>
      refine ⟨valid, stages, rfl, fun _ => rfl, ?_⟩
      rw [if_pos on]
      exact (congrArg Prod.fst complete).symm
  | cut on malformed =>
      have cut := congrArg Prod.snd malformed
      refine ⟨valid, stages, rfl, fun objects => ?_, ?_⟩
      · have complete := report_complete ((objects on).of_passes passes)
        exact nomatch cut.symm.trans complete
      · rw [if_pos on]
        exact (congrArg Prod.fst malformed).symm

end Manager

end ValueNumbering

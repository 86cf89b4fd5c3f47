import ValueNumbering.Pass.Basic
import ValueNumbering.Text.Lines
import ValueNumbering.Text.Words

/-!
Running passes over a module: function by function in the order of the module, and over each
function the passes in the order of the pipeline. Declarations and passes that are switched off are
left out.
-/

namespace ValueNumbering

structure Stage (σ : Type) where
  pass : Pass σ
  state : PassState σ

structure Manager (σ : Type) where
  stages : List (Stage σ) := []
  config : Dictionary Text.CodePoints PassConfig := ∅
  printMetrics : Bool := false

structure UnknownPass where
  name : String
  known : List String
  deriving DecidableEq, Repr

def UnknownPass.message (fault : UnknownPass) : String :=
  let known := ", ".intercalate (fault.known.mergeSort fun first second => !decide (second < first))
  s!"unknown pass '{fault.name}' (known passes: {known})"

/-- The end of a run: the manager after it, the texts that it prints, what else it wrote and the
result. -/
structure Execution (σ : Type) where
  manager : Manager σ
  printed : List Text.CodePoints := []
  diagnostics : String := ""
  result : Except PassFault Preserved

def Execution.output {σ : Type} (done : Execution σ) : Text.CodePoints := .unlines done.printed

namespace Manager

variable {σ : Type}

/-- The pass names of a pipeline; blanks around them and empty ones do not count. -/
def pipelineNames (pipeline : String) : List String :=
  (((Text.separate ',' pipeline.toList).map Text.trim).filter fun name => !name.isEmpty).map
    String.ofList

def stagesOf (registry : Dictionary String (Stage σ)) :
    List String → Except UnknownPass (List (Stage σ))
  | [] => .ok []
  | name :: rest =>
      match registry.find? name with
      | none => .error ⟨name, registry.keys⟩
      | some stage => do
          let more ← stagesOf registry rest
          return stage :: more

def ofPipeline (registry : Dictionary String (Stage σ)) (pipeline : String)
    (printMetrics : Bool := false) :
    Except UnknownPass (Manager σ) := do
  let stages ← stagesOf registry (pipelineNames pipeline)
  return { stages := stages, printMetrics := printMetrics }

def add (m : Manager σ) (stage : Stage σ) : Manager σ := { m with stages := m.stages ++ [stage] }

/-- Takes over the entries of a document, which are all read before. A fault leaves the state as it
is by then. -/
def mergeConfig (document : Json) : EStateM ConfigFault (Manager σ) Unit := do
  let entries ← ofExcept (PassConfig.readDocument document)
  modify fun m => { m with config := m.config.merge entries }

/-- The manager with the entries of a document, for a caller that stops at a fault. -/
def setConfig (m : Manager σ) (document : Json) : Except ConfigFault (Manager σ) :=
  match (mergeConfig document).run m with
  | .ok () after => .ok after
  | .error fault _ => .error fault

/-- The entry for a pass: under its name, else under the first of its aliases that has one, else the
default. -/
def configFor (config : Dictionary Text.CodePoints PassConfig) (pass : Pass σ) : PassConfig :=
  ((pass.name :: pass.aliases).findSome? fun (name : String) => config.find? name).getD
    { name := pass.name }

/-- Lets options take precedence over those in the entry of each pass. -/
def overrideOptions (options : Dictionary Text.CodePoints Json) :
    Dictionary Text.CodePoints PassConfig → List (Stage σ) →
      Except ConfigFault (Dictionary Text.CodePoints PassConfig)
  | config, [] => .ok config
  | config, stage :: rest => do
      let entry ← (configFor config stage.pass).override options
      overrideOptions options (config.insert entry.name entry) rest

def runStages (config : Dictionary Text.CodePoints PassConfig) (fn : Function) :
    List (Stage σ) → List (Stage σ) × String × Except PassFault Preserved
  | [] => ([], "", .ok .all)
  | stage :: rest =>
      let entry := configFor config stage.pass
      if entry.isEnabled then
        let visit := stage.pass.visit fn entry stage.state
        let stage := { stage with state := visit.state }
        match visit.result with
        | .error fault => (stage :: rest, visit.diagnostics, .error fault)
        | .ok preserved =>
            let (rest, diagnostics, result) := runStages config fn rest
            (stage :: rest, visit.diagnostics ++ diagnostics, result.map preserved.intersect)
      else
        let (rest, diagnostics, result) := runStages config fn rest
        (stage :: rest, diagnostics, result)

def runOnFunction (m : Manager σ) (fn : Function) : Execution σ :=
  let (stages, diagnostics, result) := runStages m.config fn m.stages
  { manager := { m with stages := stages }, diagnostics := diagnostics, result := result }

def countFunction (config : Dictionary Text.CodePoints PassConfig) (fn : Function)
    (stage : Stage σ) : Stage σ :=
  if (configFor config stage.pass).isEnabled then
    { stage with state := { stage.state with
        metrics := stage.state.metrics.map (·.addFunction fn) } }
  else stage

def runFunctions (m : Manager σ) : List Function → Execution σ
  | [] => { manager := m, result := .ok .all }
  | fn :: rest =>
      if fn.isDeclaration then runFunctions m rest
      else
        let first := m.runOnFunction fn
        match first.result with
        | .error _ => first
        | .ok preserved =>
            let counted := { first.manager with
              stages := first.manager.stages.map (countFunction m.config fn) }
            let others := runFunctions counted rest
            { others with
              diagnostics := first.diagnostics ++ others.diagnostics
              result := others.result.map preserved.intersect }

def resetMetrics (stage : Stage σ) : Stage σ :=
  { stage with state := { stage.state with metrics := some {} } }

def optionText (option : Text.CodePoints × Json) : Text.CodePoints :=
  option.1 ++ "=" ++ option.2.display

def optionsText (options : List (Text.CodePoints × Json)) : Text.CodePoints :=
  if options.isEmpty then "(default)" else .join ", " (options.map optionText)

def metricsLines (m : Metrics) : List String :=
  let custom := m.custom.entries.map fun entry =>
    (Text.CodePoints.ofString entry.1, Json.int entry.2)
  s!"Functions: {m.functions}, instructions: {m.instructions}" ::
    ((if custom.isEmpty then [] else ["Custom metrics: " ++ (Json.obj ⟨custom⟩).literal]) ++
      (if m.messages.isEmpty then [] else "Diagnostics:" :: m.messages.map ("  - " ++ ·)))

/-- The texts that report on one stage, and the fault that cuts them short. -/
def stageReport (config : Dictionary Text.CodePoints PassConfig) (stage : Stage σ) :
    List Text.CodePoints × Option ConfigFault :=
  let entry := configFor config stage.pass
  let title := s!"\n=== Pass: {stage.pass.name} ==="
  if entry.isEnabled then
    match entry.options.membersFor "items" with
    | .error fault => ([title], some fault)
    | .ok options =>
        let metrics := (stage.state.metrics.map metricsLines).getD []
        (title :: ("Config: " ++ optionsText options.entries) :: metrics.map .ofString, none)
  else ([title ++ " (SKIPPED - disabled)"], none)

def report (config : Dictionary Text.CodePoints PassConfig) :
    List (Stage σ) → List Text.CodePoints × Option ConfigFault
  | [] => ([], none)
  | stage :: rest =>
      match stageReport config stage with
      | (texts, some fault) => (texts, some fault)
      | (texts, none) =>
          let (more, fault) := report config rest
          (texts ++ more, fault)

def run (m : Manager σ) (module : Module) : Execution σ :=
  let done := runFunctions { m with stages := m.stages.map resetMetrics } module.functions
  match done.result with
  | .error _ => done
  | .ok _ =>
      if m.printMetrics then
        match report m.config done.manager.stages with
        | (texts, some fault) => { done with printed := texts, result := .error (.config fault) }
        | (texts, none) => { done with printed := texts }
      else done

end Manager

end ValueNumbering

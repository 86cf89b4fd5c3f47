import ValueNumbering.Assembly.Reader
import ValueNumbering.CommandLine.Arguments
import ValueNumbering.CommandLine.Usage
import ValueNumbering.Files.Tree
import ValueNumbering.IR.Listing
import ValueNumbering.Pass.Manager
import ValueNumbering.Pass.Reporting
import ValueNumbering.Text.Utf8

/-!
A run of the program from its arguments to its exit: the pipeline is built, configured and given the
module. Faults in the arguments' files and texts are reported and end the run with code 1; a misuse
of the arguments ends it with code 2. A configuration of the wrong shape and a fault while the
passes run or print are left to the caller.
-/

namespace ValueNumbering.CommandLine

/-- What a run reads from, and whether what it prints is encoded or kept as text. -/
structure Host where
  read : String → Except Files.OpenFault Files.Bytes
  input : Files.Bytes := []
  encodes : Bool := false

inductive Fault
  | pipeline (fault : UnknownPass)
  | file (path : String) (fault : Files.OpenFault)
  | encoding (fault : Text.Utf8.Fault)
  | document (text : List Char) (fault : Json.Fault)
  | config (fault : ConfigFault)
  | assembly (fault : Assembly.Fault)
  | pass (fault : PassFault)

def Fault.message : Fault → String
  | .pipeline fault => fault.message
  | .file path fault => fault.message path
  | .encoding fault => fault.message
  | .document text fault => fault.message text
  | .config fault => fault.message
  | .assembly fault => fault.message
  | .pass fault => fault.message

/-- The faults that a run reports itself, where they come up before the passes run. -/
def Fault.isReported : Fault → Bool
  | .pipeline _ | .file _ _ | .encoding _ | .document _ _ => true
  | .assembly .emptyParameter => false
  | .assembly _ => true
  | .config _ | .pass _ => false

def liftFault {ε α : Type} (wrap : ε → Fault) : Except ε α → Except Fault α
  | .ok a => .ok a
  | .error e => .error (wrap e)

/-- Text with a line feed at the end of each line. -/
def decodeText (bytes : Files.Bytes) : Except Fault (List Char) := do
  let text ← liftFault .encoding (Text.Utf8.decode bytes)
  return Text.plainNewlines text

def readText (host : Host) (path : String) : Except Fault (List Char) := do
  let bytes ← liftFault (.file path) (host.read path)
  decodeText bytes

def readModule (host : Host) (path : String) : Except Fault Module := do
  let path := path.toList
  let text ← readText host (String.ofList (Files.Path.normalize path))
  liftFault .assembly (Assembly.read (String.ofList text) (String.ofList (Files.Path.name path)))

def readInput (host : Host) (path : String) : Except Fault Module :=
  if path = "-" then do
    let text ← decodeText host.input
    liftFault .assembly (Assembly.read (String.ofList text))
  else readModule host path

def registry : Dictionary String (Stage Reporting) :=
  let stage : Stage Reporting := ⟨reportingPass, { own := {} }⟩
  Dictionary.ofList [("value-numbering", stage), ("lvn", stage)]

def readDocument (host : Host) (path : String) : Except Fault Json := do
  let text ← readText host path
  liftFault (.document text) (Json.read text)

/-- An empty path is as good as none. -/
def loadConfig (host : Host) (m : Manager Reporting) (path : Setting String) :
    Except Fault (Manager Reporting) :=
  match path with
  | .unset | .emptied | .value "" => .ok m
  | .value path => do
      let document ← readDocument host path
      liftFault .config (m.setConfig document)

def optionValue? : Setting Int → Option Json
  | .unset => none
  | .emptied => some (.arr [])
  | .value n => some (.int n)

def overrides (a : Arguments) : Dictionary Text.CodePoints Json :=
  let given (name : String) (value : Option Json) : List (Text.CodePoints × Json) :=
    (value.map fun value => (.ofString name, value)).toList
  .ofList (given "intern_constants" (if a.ownLiterals then some (.bool false) else none) ++
    given "column_width" (optionValue? a.column))

def applyOverrides (a : Arguments) (m : Manager Reporting) : Except Fault (Manager Reporting) :=
  let options := overrides a
  if options.isEmpty then .ok m
  else do
    let config ← liftFault .config (Manager.overrideOptions options m.config m.stages)
    return { m with config := config }

def buildPipeline (names : Setting String) (printMetrics : Bool) :
    Except Fault (Manager Reporting) :=
  match names with
  | .unset => liftFault .pipeline (Manager.ofPipeline registry "value-numbering" printMetrics)
  | .value names => liftFault .pipeline (Manager.ofPipeline registry names printMetrics)
  | .emptied => .error (.config (.lacks (.arr []) "split"))

/-- The configured pipeline and the module, found in this order: pipeline, configuration, input. -/
def prepare (host : Host) (a : Arguments) : Except Fault (Manager Reporting × Module) := do
  let m ← buildPipeline a.pipeline a.printMetrics
  let m ← loadConfig host m a.configPath
  let m ← applyOverrides a m
  let found ← readInput host (a.input.getD "")
  return (m, found)

inductive Exit
  | code (n : Nat)
  | escaped (fault : Fault)

structure Outcome where
  output : Text.CodePoints := ""
  diagnostics : String := ""
  exit : Exit := .code 0

/-- Prints texts, up to the first that cannot be encoded where that is asked for. -/
def Host.print (host : Host) : List Text.CodePoints → Text.CodePoints × Option Text.Utf8.Fault
  | [] => ("", none)
  | text :: rest =>
      match if host.encodes then Text.Utf8.encodingFault? text else none with
      | some fault => ("", some fault)
      | none =>
          let (more, fault) := host.print rest
          (text ++ "\n" ++ more, fault)

/-- A listing has no surrogates, so that a text which is not encoded is one of the report, after all
diagnostics. -/
def execute (host : Host) (a : Arguments) (m : Manager Reporting) (module : Module) : Outcome :=
  let listing : Except OperandFault (List String) := if a.printIR then module.listing else .ok []
  match listing with
  | .error fault => { exit := .escaped (.pass (.numbering (.operands fault))) }
  | .ok lines =>
      let done := m.run module
      let (output, refused) := host.print (lines.map .ofString ++ done.printed)
      { output := output, diagnostics := done.diagnostics,
        exit := match refused, done.result with
          | some fault, _ => .escaped (.encoding fault)
          | none, .ok _ => .code 0
          | none, .error fault => .escaped (.pass fault) }

def run (host : Host) (arguments : List String) : Outcome :=
  match Arguments.read arguments with
  | .error .help => { output := help }
  | .error (.misuse fault) =>
    { diagnostics := usage ++ s!"lvn-opt: error: {fault.message}\n", exit := .code 2 }
  | .ok a =>
      match prepare host a with
      | .error fault =>
          if fault.isReported then { diagnostics := s!"error: {fault.message}\n", exit := .code 1 }
          else { exit := .escaped fault }
      | .ok (m, module) => execute host a m module

end ValueNumbering.CommandLine

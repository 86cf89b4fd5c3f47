import ValueNumbering.Text.Integer

/-!
Command-line arguments. An option may be shortened to the beginning of one of its spellings, and a
value follows it or is joined by an equals sign. After two dashes every argument is plain. The first
plain argument is the input.
-/

namespace ValueNumbering.CommandLine

inductive OptionKey
  | help
  | pipeline
  | configPath
  | printMetrics
  | printIR
  | ownLiterals
  | column
  deriving DecidableEq, Repr

structure OptionSpec where
  key : OptionKey
  spellings : List String
  takesValue : Bool := false
  deriving DecidableEq, Repr

def OptionSpec.title (spec : OptionSpec) : String := "/".intercalate spec.spellings

def optionSpecs : List OptionSpec :=
  [⟨.help, ["-h", "--help"], false⟩, ⟨.pipeline, ["-passes", "--passes"], true⟩,
    ⟨.configPath, ["--pass-config"], true⟩, ⟨.printMetrics, ["--print-metrics"], false⟩,
    ⟨.printIR, ["--print-ir"], false⟩, ⟨.ownLiterals, ["--no-intern-constants"], false⟩,
    ⟨.column, ["--column-width"], true⟩]

inductive UsageFault
  | ambiguous (argument : String) (candidates : List String)
  | ignoredValue (title value : String)
  | missingValue (title : String)
  | notInteger (title value : String)
  | missingInput
  | unrecognized (arguments : List String)
  deriving DecidableEq, Repr

def UsageFault.message : UsageFault → String
  | .ambiguous argument candidates =>
      s!"ambiguous option: {argument} could match " ++ ", ".intercalate candidates
  | .ignoredValue title value =>
    s!"argument {title}: ignored explicit argument " ++ Text.quoted value
  | .missingValue title => s!"argument {title}: expected one argument"
  | .notInteger title value => s!"argument {title}: invalid int value: " ++ Text.quoted value
  | .missingInput => "the following arguments are required: input"
  | .unrecognized arguments => "unrecognized arguments: " ++ " ".intercalate arguments

/-- An argument by its role. A one-letter option without a value may have further letters behind
it. -/
inductive Word
  | separator
  | plain (text : String)
  | option (spec : OptionSpec) (value : Option String)
  | letters (spec : OptionSpec) (more : List Char)
  | unknown (text : String)
  deriving DecidableEq, Repr

def cutAtEquals (text : List Char) : List Char × Option (List Char) :=
  match text.span (· != '=') with
  | (before, []) => (before, none)
  | (before, _ :: after) => (before, some after)

def isOneLetter (spelling : List Char) : Bool := spelling.length == 2

def specNamed? (spelling : List Char) : Option OptionSpec :=
  optionSpecs.find? fun spec => spec.spellings.contains (String.ofList spelling)

/-- A minus sign and digits, with a point before the last ones or none. -/
def isNegativeNumber (text : List Char) : Bool :=
  let text := if text.getLast? = some '\n' then text.dropLast else text
  match text with
  | '-' :: body =>
      match body.span Text.isDecimal with
      | (whole, []) => !whole.isEmpty
      | (_, '.' :: fraction) => !fraction.isEmpty && fraction.all Text.isDecimal
      | _ => false
  | _ => false

/-- What a shortened argument could mean, with the spelling of the option. -/
def candidates (text : List Char) : List (String × Word) :=
  let spellings := optionSpecs.flatMap fun spec => spec.spellings.map fun spelling =>
    (spec, spelling)
  match text with
  | '-' :: '-' :: _ =>
      let (start, value) := cutAtEquals text
      (spellings.filter fun entry => start.isPrefixOf entry.2.toList).map fun entry =>
        (entry.2, .option entry.1 (value.map String.ofList))
  | _ =>
      spellings.filterMap fun entry =>
        if entry.2.toList = text.take 2 then some (entry.2, .letters entry.1 (text.drop 2))
        else if text.isPrefixOf entry.2.toList then some (entry.2, .option entry.1 none)
        else none

def classifyShortened (argument : String) : Except UsageFault Word :=
  let text := argument.toList
  match candidates text with
  | [(_, word)] => .ok word
  | [] =>
    .ok (if isNegativeNumber text || text.contains ' ' then .plain argument else .unknown argument)
  | several => .error (.ambiguous argument (several.map (·.1)))

def classify (argument : String) : Except UsageFault Word :=
  let text := argument.toList
  if text.head? ≠ some '-' ∨ text.length = 1 then .ok (.plain argument)
  else match specNamed? text, cutAtEquals text with
    | some spec, _ => .ok (.option spec none)
    | none, (_, none) => classifyShortened argument
    | none, (start, some value) =>
        match specNamed? start with
        | some spec =>
            .ok (if isOneLetter start then .letters spec value
              else .option spec (some (String.ofList value)))
        | none => classifyShortened argument

def classifyAll : List String → Except UsageFault (List Word)
  | [] => .ok []
  | argument :: rest =>
      if argument = "--" then .ok (.separator :: rest.map .plain)
      else do
        let word ← classify argument
        let more ← classifyAll rest
        return word :: more

/-- What an option is set to. Two dashes that an equals sign joins to it are taken out as a
separator, and an empty list of values remains. -/
inductive Setting (α : Type)
  | unset
  | emptied
  | value (a : α)
  deriving DecidableEq, Repr, Inhabited

def Setting.value? {α : Type} : Setting α → Option α
  | .value a => some a
  | .unset | .emptied => none

structure Arguments where
  input : Option String := none
  pipeline : Setting String := .unset
  configPath : Setting String := .unset
  printMetrics : Bool := false
  printIR : Bool := false
  ownLiterals : Bool := false
  column : Setting Int := .unset
  extras : List String := []
  deriving DecidableEq, Repr, Inhabited

inductive Stop
  | help
  | misuse (fault : UsageFault)
  deriving DecidableEq, Repr

namespace Arguments

def setFlag (a : Arguments) : OptionKey → Except Stop Arguments
  | .help => .error .help
  | .printMetrics => .ok { a with printMetrics := true }
  | .printIR => .ok { a with printIR := true }
  | .ownLiterals => .ok { a with ownLiterals := true }
  | .pipeline | .configPath | .column => .ok a

def setValue (a : Arguments) (spec : OptionSpec) (value : String) : Except Stop Arguments :=
  match spec.key with
  | .pipeline => .ok { a with pipeline := .value value }
  | .configPath => .ok { a with configPath := .value value }
  | .column =>
      match Text.Integer.read value.toList with
      | .ok n => .ok { a with column := .value n }
      | .error _ => .error (.misuse (.notInteger spec.title value))
  | .help | .printMetrics | .printIR | .ownLiterals => .ok a

def clearValue (a : Arguments) : OptionKey → Arguments
  | .pipeline => { a with pipeline := .emptied }
  | .configPath => { a with configPath := .emptied }
  | .column => { a with column := .emptied }
  | .help | .printMetrics | .printIR | .ownLiterals => a

def setJoined (a : Arguments) (spec : OptionSpec) (value : String) : Except Stop Arguments :=
  if value = "--" then .ok (a.clearValue spec.key) else a.setValue spec value

/-- The letters behind a request for help may only ask again; from the first other one on they are
refused. -/
def refuseLetters (spec : OptionSpec) : List Char → Stop
  | ['h'] => .help
  | 'h' :: more => refuseLetters spec more
  | more => .misuse (.ignoredValue spec.title (String.ofList more))

def addExtra (a : Arguments) (text : String) : Arguments := { a with extras := a.extras ++ [text] }

/-- The words from left to right. A separator next to the input belongs to it. -/
def scan (a : Arguments) : List Word → Except Stop Arguments
  | [] => .ok a
  | .option spec value :: rest =>
      match spec.takesValue, value, rest with
      | true, some value, rest => do
          let a ← a.setJoined spec value
          a.scan rest
      | true, none, .plain value :: rest => do
          let a ← a.setValue spec value
          a.scan rest
      | true, none, _ => .error (.misuse (.missingValue spec.title))
      | false, some value, _ => .error (.misuse (.ignoredValue spec.title value))
      | false, none, rest => do
          let a ← a.setFlag spec.key
          a.scan rest
  | .letters spec more :: _ => .error (refuseLetters spec more)
  | .separator :: .plain text :: rest =>
      if a.input.isNone then scan { a with input := some text } rest
      else scan ((a.addExtra "--").addExtra text) rest
  | .separator :: rest => scan (a.addExtra "--") rest
  | .plain text :: rest =>
      if a.input.isNone then
        match rest with
        | .separator :: rest => scan { a with input := some text } rest
        | rest => scan { a with input := some text } rest
      else scan (a.addExtra text) rest
  | .unknown text :: rest => scan (a.addExtra text) rest

def read (arguments : List String) : Except Stop Arguments :=
  match classifyAll arguments with
  | .error fault => .error (.misuse fault)
  | .ok words =>
      match scan {} words with
      | .error stop => .error stop
      | .ok a =>
          if a.input.isNone then .error (.misuse .missingInput)
          else if a.extras.isEmpty then .ok a
          else .error (.misuse (.unrecognized a.extras))

end Arguments

end ValueNumbering.CommandLine

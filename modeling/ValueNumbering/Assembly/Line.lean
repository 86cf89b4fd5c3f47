import ValueNumbering.Assembly.Fault
import ValueNumbering.Assembly.Name
import ValueNumbering.Text.Lines

/-!
The kinds of lines. Outside a function a line opens one, declares one, defines a global or is passed
over; inside, it closes the function, opens a block or holds an instruction.
-/

namespace ValueNumbering.Assembly

open Text

/-- Cuts off a comment, which begins at a semicolon outside double quotes. -/
def stripComment (inQuotes : Bool) : List Char → List Char
  | [] => []
  | c :: rest =>
      if c = '"' then c :: stripComment (!inQuotes) rest
      else if c = ';' ∧ inQuotes = false then []
      else c :: stripComment inQuotes rest

def content (line : List Char) : List Char := trim (stripComment false line)

def contentLines (text : List Char) : List (Nat × List Char) :=
  ((numberedLines text).map fun entry => (entry.1, content entry.2)).filter fun entry =>
    !entry.2.isEmpty

inductive TopLine
  | skipped
  | definition (returnType name params : List Char)
  | declaration (returnType name params : List Char)
  | global (name initializer : List Char)
  deriving DecidableEq, Repr

/-- Module-level lines that describe no function and no global: target and file properties,
attributes, metadata, comdats and named types. -/
def isSkipped (line : List Char) : Bool :=
  match line with
  | '!' :: _ => true
  | '$' :: _ => true
  | '%' :: rest =>
      match bound? rest with
      | some (_, after) => (afterWord? "type" after).isSome
      | none => false
  | _ =>
      ["target", "source_filename", "attributes", "module", "uselistorder"].any fun word =>
        (afterWord? word line).isSome

def returnType (head : List Char) : List Char := (words head).getLast?.getD "void".toList

/-- The text between a keyword and the name, the name, and the text after the opening
parenthesis. -/
def signature? (keyword : String)
    (line : List Char) : Option (List Char × List Char × List Char) := do
  let rest ← keyword.toList.isPrefixOf? line
  let first ← rest.head?
  if isBlank first then
    let (head, rest) := (trimLeft rest).span (· != '@')
    let (name, rest) ← name? (← after? '@' rest)
    let rest ← after? '(' rest
    return (head, name, rest)
  else none

/-- The parameters end at the last closing parenthesis before the brace that ends the line. -/
def definition? (line : List Char) : Option TopLine := do
  let (head, name, rest) ← signature? "define" line
  if rest.getLast? = some '{' then
    let (params, tail) ← cutAtLast? ')' rest.dropLast
    if tail.contains '{' then none else some (.definition (returnType head) name params)
  else none

def declaration? (line : List Char) : Option TopLine := do
  let (head, name, rest) ← signature? "declare" line
  let (params, _) ← cutAtLast? ')' rest
  return .declaration (returnType head) name (trim params)

def global? (line : List Char) : Option TopLine := do
  let (name, initializer) ← bound? (← after? '@' line)
  return .global name initializer

def TopLine.read (line : List Char) : Except Cause TopLine :=
  if isSkipped line then .ok .skipped
  else match definition? line with
    | some found => .ok found
    | none =>
        if startsWith "define" line then .error .malformedDefinition
        else match declaration? line with
          | some found => .ok found
          | none =>
              if startsWith "declare" line then .error .malformedDeclaration
              else match global? line with
                | some found => .ok found
                | none => .error .outsideFunction

inductive BodyLine
  | close
  | label (name : List Char)
  | instruction (result : Option (List Char)) (mnemonic rest : List Char)
  deriving DecidableEq, Repr

def label? (line : List Char) : Option (List Char) :=
  match name? line with
  | some (name, [':']) => some name
  | _ => none

def mnemonic? (text : List Char) : Option (List Char × List Char) :=
  match text with
  | c :: _ => if ('a' ≤ c && c ≤ 'z') || c = '_' then some (text.span isWord) else none
  | [] => none

def instruction? (line : List Char) : Option BodyLine :=
  match line with
  | '%' :: rest => do
      let (name, rest) ← bound? rest
      let (mnemonic, rest) ← mnemonic? rest
      return .instruction (some name) mnemonic (trimLeft rest)
  | _ => do
      let (mnemonic, rest) ← mnemonic? line
      return .instruction none mnemonic (trimLeft rest)

def BodyLine.read (line : List Char) : Except Cause BodyLine :=
  if line = ['}'] then .ok .close
  else match label? line with
    | some name => .ok (.label name)
    | none =>
        match instruction? line with
        | some found =>
            if startsWith "define" line then .error (.unreadableLine (String.ofList line))
              else .ok found
        | none => .error (.unreadableLine (String.ofList line))

end ValueNumbering.Assembly

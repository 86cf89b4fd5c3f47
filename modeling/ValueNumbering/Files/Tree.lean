import ValueNumbering.Dictionary
import ValueNumbering.Files.Path
import ValueNumbering.Text.Quoted

/-! A directory of files held in memory, and what goes wrong when one is opened. -/

namespace ValueNumbering.Files

abbrev Bytes := List UInt8

inductive OpenFault
  | notFound
  | notDirectory
  | isDirectory
  | nameTooLong
  | embeddedNull
  deriving DecidableEq, Repr

def OpenFault.message (fault : OpenFault) (path : String) : String :=
  match fault with
  | .notFound => "[Errno 2] No such file or directory: " ++ Text.quoted path
  | .notDirectory => "[Errno 20] Not a directory: " ++ Text.quoted path
  | .isDirectory => "[Errno 21] Is a directory: " ++ Text.quoted path
  | .nameTooLong => "[Errno 36] File name too long: " ++ Text.quoted path
  | .embeddedNull => "embedded null byte"

/-- Files by their path from the directory. Every proper beginning of a path is a directory. -/
structure Tree where
  files : Dictionary (List (List Char)) Bytes := ∅

namespace Tree

def ofFiles (files : List (String × Bytes)) : Tree :=
  ⟨Dictionary.ofList (files.map fun file => (Path.parts file.1.toList, file.2))⟩

def isDirectory (tree : Tree) (path : List (List Char)) : Bool :=
  path.isEmpty || tree.files.keys.any fun key => path.isPrefixOf key && path.length < key.length

def byteLength (text : List Char) : Nat := (String.ofList text).utf8ByteSize

/-- What opening the rest of a path comes to outside the directory, where nothing is known but that
the directories above are there. -/
def outside (rest : List (List Char)) : OpenFault :=
  match rest.find? fun part => part ≠ [] ∧ part ≠ ['.'] ∧ part ≠ ['.', '.'] with
  | some part => if 255 < byteLength part then .nameTooLong else .notFound
  | none => .isDirectory

/-- The file at the end of a walk from a directory. A part is looked up where the walk stands; a
file has no parts, not even an empty one. -/
def walk (tree : Tree) (here : List (List Char)) : List (List Char) → Except OpenFault Bytes
  | [] => .error .isDirectory
  | part :: rest =>
      if part = [] ∨ part = ['.'] then walk tree here rest
      else if part = ['.', '.'] then
        if here = [] then .error (outside rest)
        else walk tree here.dropLast rest
      else if 255 < byteLength part then .error .nameTooLong
      else
        let next := here ++ [part]
        if tree.isDirectory next then walk tree next rest
        else match tree.files.find? next with
          | some bytes => if rest.isEmpty then .ok bytes else .error .notDirectory
          | none => .error .notFound

/-- Opens a path that is relative to the directory or begins at the root. -/
def read (tree : Tree) (path : String) : Except OpenFault Bytes :=
  let text := path.toList
  if text.contains '\x00' then .error .embeddedNull
  else if text.isEmpty then .error .notFound
  else if 4096 ≤ byteLength text then .error .nameTooLong
  else if text.head? = some '/' then .error (outside (Path.split text))
  else tree.walk [] (Path.split text)

end Tree

end ValueNumbering.Files

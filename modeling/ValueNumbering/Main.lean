import ValueNumbering.CommandLine.Run

/-! The program: reads what its arguments name, runs, and writes the output. -/

namespace ValueNumbering.CommandLine

partial def readAll (stream : IO.FS.Stream) (read : ByteArray) : IO ByteArray := do
  let chunk ← stream.read 65536
  if chunk.isEmpty then return read else readAll stream (read ++ chunk)

def openFile (path : String) : IO (Except Files.OpenFault Files.Bytes) := do
  if path.toList.contains '\x00' then return .error .embeddedNull
  try
    let bytes ← IO.FS.readBinFile path
    return .ok bytes.toList
  catch
    | .noFileOrDirectory .. => return .error .notFound
    | .inappropriateType .. => return .error .isDirectory
    | .resourceExhausted .. => return .error .nameTooLong
    | _ => return .error .notDirectory

/-- The paths that a run would open, and whether it reads its standard input. -/
def sourcesOf (arguments : List String) : List String × Bool :=
  match Arguments.read arguments with
  | .error _ => ([], false)
  | .ok a =>
      let input := a.input.toList.map fun path => String.ofList (Files.Path.normalize path.toList)
      (a.configPath.value?.toList ++ input, decide (a.input = some "-"))

end ValueNumbering.CommandLine

open ValueNumbering.CommandLine

def main (arguments : List String) : IO UInt32 := do
  let (paths, readsInput) := sourcesOf arguments
  let opened ← paths.mapM fun path => do
    let found ← openFile path
    return (path, found)
  let stdin ← if readsInput then readAll (← IO.getStdin) .empty else pure .empty
  let host : Host :=
    { read := fun path =>
        ((opened.find? fun entry => entry.1 == path).map (·.2)).getD (.error .notFound),
      input := stdin.toList, encodes := true }
  let outcome := run host arguments
  (← IO.getStdout).putStr outcome.output.shown
  (← IO.getStderr).putStr outcome.diagnostics
  match outcome.exit with
  | .code n => return n.toUInt32
  | .escaped fault =>
      (← IO.getStderr).putStrLn fault.message
      return 1

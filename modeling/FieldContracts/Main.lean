import FieldContracts.CommandLine.Run

/-!
# The command

Reads the files that a request names, and prints what the command leaves behind.
-/

namespace FieldContracts.CommandLine

/-- Reads a file as text. -/
def loadFile (path : String) : IO (Except FileFailure String) := do
  try
    return textOfBytes (← IO.FS.readBinFile path)
  catch
    | .noFileOrDirectory .. => return .error .notFound
    | .inappropriateType _ 21 _ => return .error .isDirectory
    | e => return .error (.other (toString e))

/-- Loads the files that a request names. -/
def loadFiles (request : Request) : IO Files := do
  let paths := request.configFile.toList ++ [request.programFile]
  let texts ← paths.mapM fun path => return (path, ← loadFile path)
  return fun path => (texts.lookup path).getD (.error .notFound)

/-- What is printed when the arguments ask for nothing. -/
def usage : String :=
  "error: usage: check PROGRAM [-c FILE] [-f json|text] [--precondition-annotation NAME] " ++
    "[--postcondition-annotation NAME] [--treat-invalid-as-empty] [-v]"

end FieldContracts.CommandLine

open FieldContracts.CommandLine in
/-- Prints the report and gives the exit code. -/
def main (args : List String) : IO UInt32 := do
  match readArguments args with
  | none =>
      IO.eprintln usage
      return 2
  | some request =>
      let response := request.run (← loadFiles request)
      IO.print response.output
      if let some e := response.error then
        IO.eprintln ("Error: " ++ e.message)
      return response.exitCode.toUInt32

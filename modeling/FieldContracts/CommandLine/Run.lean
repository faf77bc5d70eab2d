import FieldContracts.Check.Document
import FieldContracts.Check.Whole
import FieldContracts.CommandLine.Arguments
import FieldContracts.Program.Document

/-!
# Running the command

The command reads the configuration, then the program, and reports what the checker finds.  Exit
code 0 means that it finds nothing, 1 that it reports diagnostics, and 2 that the arguments or the
files are not usable.
-/

namespace FieldContracts.CommandLine

open Json

/-- Why a file is not read as text. -/
inductive FileFailure where
  | notFound
  | isDirectory
  | notText
  /-- Any other failure, in the words of the system. -/
  | other (reason : String)
deriving DecidableEq, Repr

def FileFailure.message : FileFailure → String
  | .notFound => "No such file or directory (os error 2)"
  | .isDirectory => "Is a directory (os error 21)"
  | .notText => "stream did not contain valid UTF-8"
  | .other reason => reason

/-- The texts of the files that the command may read. -/
abbrev Files := String → Except FileFailure String

/-- The text that the bytes of a file spell. -/
def textOfBytes (bytes : ByteArray) : Except FileFailure String :=
  match String.fromUTF8? bytes with
  | some text => .ok text
  | none => .error .notText

/-- Why the command reports no result. -/
inductive RunError where
  | unreadable (path : String) (failure : FileFailure)
  | invalidJson (path : String) (error : ReadError)
  | invalidProgram (error : BuildError)

/-- What is wrong with a document, in a few words.  Two general texts stand for all that a reader
says of the syntax, and the line and the column with which a message ends are left out.  The text
goes to the error output only; neither the exit code nor the report depends on it. -/
def describe : ReadError → String
  | .endsEarly => "unexpected end of the document"
  | .malformed => "not a JSON document"
  | .unfitting error => error.message

/-- The part of the report on a failure that names its place. -/
def RunError.headline : RunError → String
  | .unreadable path failure => s!"failed to read '{path}': {failure.message}"
  | .invalidJson path _ => s!"invalid JSON in '{path}':"
  | .invalidProgram error => s!"invalid program: {error.message}"

def RunError.message : RunError → String
  | .invalidJson path error =>
      let headline := (RunError.invalidJson path error).headline
      let detail := describe error
      s!"{headline} {detail}"
  | e => e.headline

def readFile (files : Files) (path : String) : Except RunError String :=
  (files path).mapError (.unreadable path)

/-- Reads a file as a document. -/
def readDocument {α : Type} (files : Files) (f : Format α) (path : String) : Except RunError α := do
  let text ← readFile files path
  (f.decode text).mapError (.invalidJson path)

/-- Lays the options over a configuration. -/
def Request.override (request : Request) (config : Config) : Config where
  precondition := request.precondition.getD config.precondition
  postcondition := request.postcondition.getD config.postcondition
  policy := if request.treatInvalidAsEmpty then .treatAsEmpty else config.policy

/-- The configuration in force: that of the file, or the standard one, under the options. -/
def effectiveConfig (files : Files) (request : Request) : Except RunError Config := do
  match request.configFile with
  | none => return request.override Config.standard
  | some path =>
      let config ← readDocument files Config.layout.format path
      return request.override config

/-- What the checker finds in a program. -/
def checkProgram (config : Config) (p : Program) : Except BuildError (List Diagnostic) := do
  let h ← Hierarchy.ofProgram p
  return config.checkAll h (FactTable.ofProgram p h).facts

/-- What the checker finds in the program file. -/
def diagnose (files : Files) (request : Request) : Except RunError (List Diagnostic) := do
  -- A faulty configuration is reported whatever the program file holds.
  let config ← effectiveConfig files request
  let p ← readDocument files Program.layout.format request.programFile
  (checkProgram config p).mapError .invalidProgram

/-- The report in one of the formats. -/
def OutputFormat.render (format : OutputFormat) (diagnostics : List Diagnostic) : String :=
  match format with
  | .json => (Diagnostic.layout.format.list.write diagnostics).pretty ++ "\n"
  | .text => String.join (diagnostics.map fun d => d.text ++ "\n")

/-- What the command leaves behind. -/
structure Response where
  exitCode : Nat
  output : String
  error : Option RunError

/-- Carries out a request. -/
def Request.run (request : Request) (files : Files) : Response :=
  match diagnose files request with
  | .error e => ⟨2, "", some e⟩
  | .ok diagnostics =>
      ⟨if diagnostics.isEmpty then 0 else 1, request.format.render diagnostics, none⟩

/-- Runs the command with these arguments. -/
def run (files : Files) (args : List String) : Response :=
  match readArguments args with
  | none => ⟨2, "", none⟩
  | some request => request.run files

end FieldContracts.CommandLine

/-!
# Arguments of the command

The command `check` takes a program file and options.  Options stand before or after the file;
`readArguments` accepts an argument list only if it names one file, repeats no option and gives
every option a value of its kind.
-/

namespace FieldContracts.CommandLine

inductive OutputFormat where
  | json
  | text
deriving DecidableEq, Repr

def OutputFormat.ofName? : String → Option OutputFormat
  | "json" => some .json
  | "text" => some .text
  | _ => none

/-- What the command is asked to do. -/
structure Request where
  programFile : String
  configFile : Option String
  format : OutputFormat
  precondition : Option String
  postcondition : Option String
  treatInvalidAsEmpty : Bool
deriving DecidableEq, Repr

/-- An option that takes a value. -/
inductive Setting where
  | config
  | format
  | precondition
  | postcondition
deriving DecidableEq, Repr

/-- An option that takes no value. -/
inductive Switch where
  | treatInvalidAsEmpty
  | verbose
deriving DecidableEq, Repr

/-- An option by its name. -/
inductive OptionName where
  | setting (s : Setting)
  | switch (s : Switch)
deriving DecidableEq, Repr

def OptionName.ofLong? : String → Option OptionName
  | "config" => some (.setting .config)
  | "format" => some (.setting .format)
  | "precondition-annotation" => some (.setting .precondition)
  | "postcondition-annotation" => some (.setting .postcondition)
  | "treat-invalid-as-empty" => some (.switch .treatInvalidAsEmpty)
  | "verbose" => some (.switch .verbose)
  | _ => none

def OptionName.ofShort? : Char → Option OptionName
  | 'c' => some (.setting .config)
  | 'f' => some (.setting .format)
  | 'v' => some (.switch .verbose)
  | _ => none

/-- One thing that the arguments say. -/
inductive Given where
  | file (path : String)
  | setting (s : Setting) (value : String)
  | switch (s : Switch)
deriving DecidableEq, Repr

namespace Given

def file? : Given → Option String
  | .file path => some path
  | _ => none

def value? (s : Setting) : Given → Option String
  | .setting t value => if t = s then some value else none
  | _ => none

end Given

/-- What one argument says, and the option that the next argument is the value of. -/
structure Piece where
  given : List Given
  pending : Option Setting

/-- Reads short options written together.  A value may follow its option at once, also behind an
equals sign. -/
def readShort : List Char → Option Piece
  | [] => some ⟨[], none⟩
  | c :: rest =>
      match OptionName.ofShort? c with
      | none => none
      | some (.switch s) =>
          (readShort rest).map fun piece => { piece with given := .switch s :: piece.given }
      | some (.setting s) =>
          match rest with
          | [] => some ⟨[], some s⟩
          | '=' :: value => some ⟨[.setting s (String.ofList value)], none⟩
          | value => some ⟨[.setting s (String.ofList value)], none⟩

/-- Reads a long option from behind its dashes.  A value may follow an equals sign. -/
def readLong (text : List Char) : Option Piece :=
  let name := String.ofList (text.takeWhile (· != '='))
  match OptionName.ofLong? name, text.dropWhile (· != '=') with
  | some (.setting s), [] => some ⟨[], some s⟩
  | some (.setting s), _ :: value => some ⟨[.setting s (String.ofList value)], none⟩
  | some (.switch s), [] => some ⟨[.switch s], none⟩
  | _, _ => none

/-- Whether an argument is an option; a dash alone is none. -/
def isOption (arg : String) : Bool :=
  match arg.toList with
  | '-' :: _ :: _ => true
  | _ => false

/-- Reads one argument. -/
def readPiece (arg : String) : Option Piece :=
  match arg.toList with
  | '-' :: '-' :: text => readLong text
  | '-' :: c :: text => readShort (c :: text)
  | _ => some ⟨[.file arg], none⟩

/-- Reads the arguments behind the name of the command.  An argument behind an option that takes a
value is that value, unless it is an option itself; behind two dashes all arguments are files. -/
def readPieces : (pending : Option Setting) → List String → Option (List Given)
  | none, [] => some []
  | some _, [] => none
  | some s, arg :: rest =>
      if isOption arg then none
      else (readPieces none rest).map (.setting s arg :: ·)
  | none, arg :: rest =>
      if arg = "--" then some (rest.map .file)
      else
        match readPiece arg with
        | none => none
        | some piece => (readPieces piece.pending rest).map (piece.given ++ ·)

/-- The only member of a list that has at most one. -/
def atMostOne {α : Type} : List α → Option (Option α)
  | [] => some none
  | [value] => some (some value)
  | _ => none

/-- The value of an option that is given at most once. -/
def settingOf (given : List Given) (s : Setting) : Option (Option String) :=
  atMostOne (given.filterMap (Given.value? s))

/-- Whether an option is given, if it is given at most once. -/
def switchOf (given : List Given) (s : Switch) : Option Bool :=
  (atMostOne (given.filter (· = .switch s))).map Option.isSome

/-- A file name is not empty. -/
def nonEmpty (path : String) : Option String := if path.isEmpty then none else some path

/-- The name of the file, which must be given once. -/
def programOf (given : List Given) : Option String := do
  let path ← atMostOne (given.filterMap Given.file?)
  path.bind nonEmpty

/-- The format of the output, JSON unless another is given. -/
def formatOf (given : List Given) : Option OutputFormat := do
  match ← settingOf given .format with
  | none => some .json
  | some name => OutputFormat.ofName? name

/-- The name of the configuration file, if it is given. -/
def configOf (given : List Given) : Option (Option String) := do
  match ← settingOf given .config with
  | none => some none
  | some path => (nonEmpty path).map some

/-- What all that is given asks for. -/
def requestOf (given : List Given) : Option Request := do
  let programFile ← programOf given
  let configFile ← configOf given
  let format ← formatOf given
  let precondition ← settingOf given .precondition
  let postcondition ← settingOf given .postcondition
  let treatInvalidAsEmpty ← switchOf given .treatInvalidAsEmpty
  -- Verbose logging changes no result, but it is not given twice either.
  let _ ← switchOf given .verbose
  return { programFile, configFile, format, precondition, postcondition, treatInvalidAsEmpty }

/-- What an argument list asks for.  Before the name of the command only the switch for verbose
logging may stand. -/
def readArguments : List String → Option Request
  | "check" :: args => (readPieces none args).bind requestOf
  | "-v" :: "check" :: args => (readPieces none args).bind requestOf
  | "--verbose" :: "check" :: args => (readPieces none args).bind requestOf
  | _ => none

end FieldContracts.CommandLine

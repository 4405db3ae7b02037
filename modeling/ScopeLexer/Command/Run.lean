import ScopeLexer.Command.Output
import ScopeLexer.Registry

/-!
What the command does: it sets up a registry, loads a grammar, and writes the tokens of a file. It
writes nothing if something goes wrong.
-/
namespace ScopeLexer.Command

/-- Why a run fails. -/
inductive RunError where
  /-- There is neither a grammar nor a scope name. -/
  | noGrammar
  /-- A document or a grammar cannot be used. -/
  | library (error : Error)
  /-- The file to tokenize cannot be read. -/
  | file (error : FileError)
  deriving Repr, DecidableEq, Inhabited

def RunError.message : RunError → String
  | .noGrammar => "no grammar to use, pass --grammar or --scope"
  | .library error => error.message
  | .file error => error.message

/-- An answer of the registry, as an answer of the run. -/
def ofLibrary {α : Type} : Except Error α → Except RunError α
  | .ok value => .ok value
  | .error error => .error (.library error)

/-- Adds the grammars in files, and tells the scope name of the first. -/
def addGrammars (disk : Disk) : List String → Registry → Except Error (Option String × Registry)
  | [], registry => .ok (none, registry)
  | path :: paths, registry => do
    let (scopeName, registry) ← registry.addGrammarFile disk path
    let (_, registry) ← addGrammars disk paths registry
    return (some scopeName, registry)

/-- The output for some lines, counted from a number. -/
def linesOutput (form : OutputForm) (colors : List String) :
    Nat → List (String × ScannedLine) → String
  | _, [] => ""
  | number, (text, scanned) :: rest =>
    lineOutput form colors number text scanned ++ linesOutput form colors (number + 1) rest

/-- Sets up the registry, and tells the scope name of the grammar to use. -/
def prepare (arguments : Arguments) (disk : Disk) : Except RunError (String × Registry) := do
  let registry ← match arguments.config with
    | none => pure {}
    | some path => ofLibrary do Registry.ofConfig disk (← RegistryConfig.load disk path)
  let (first, registry) ← ofLibrary (addGrammars disk arguments.grammars registry)
  let registry ← match arguments.theme with
    | none => pure registry
    | some path => ofLibrary (registry.setThemeFile disk path)
  match arguments.scope.orElse fun _ => first with
  | none => throw .noGrammar
  | some scopeName => return (scopeName, registry)

/-- What is written to the standard output. -/
def output (arguments : Arguments) (disk : Disk) : Except RunError String := do
  let (scopeName, registry) ← prepare arguments disk
  let (loaded, registry) := registry.load disk scopeName
  match ← ofLibrary loaded with
  | none => throw (.library (.grammarNotFound scopeName))
  | some tokenizer =>
    match disk.read arguments.file with
    | .error error => throw (.file error)
    | .ok text =>
      let (scanned, _) := registry.tokenizeText tokenizer (.ofLimit arguments.timeLimit) text
      return linesOutput arguments.output registry.colors 1 ((Text.lines text).zip scanned)

structure Report where
  status : UInt8
  standardOutput : String := ""
  standardError : String := ""
  deriving Repr, DecidableEq, Inhabited

/-- The status of a run that was refused. -/
def refusedStatus : UInt8 := 2

def run (arguments : List String) (disk : Disk) : Report :=
  match Arguments.ofList arguments with
  | .error error => { status := refusedStatus, standardError := "error: " ++ error.message ++ "\n" }
  | .ok arguments =>
    match output arguments disk with
    | .ok text => { status := 0, standardOutput := text }
    | .error error => { status := 1, standardError := "error: " ++ error.message ++ "\n" }

/-- The files that a configuration names. -/
def pathsOfConfig (config : RegistryConfig) : List String :=
  config.grammars.values ++ config.theme.toList

def pathsOf (arguments : Arguments) : List String :=
  arguments.config.toList ++ arguments.grammars ++ arguments.theme.toList ++ [arguments.file]

end ScopeLexer.Command

import ScopeLexer.Text.Pieces

/-!
The command line: a file to tokenize, and options. Every option takes a value, which follows it or is
attached to it. Of the options only the one for grammars may be repeated. After `--` there are no more
options.
-/
namespace ScopeLexer.Command

/-- How tokens are written. -/
inductive OutputForm where
  /-- A line for each token, with its scopes. -/
  | scopes
  /-- A line for each line, with its tokens as an array. -/
  | json
  /-- The text in the colours of the theme, for a terminal. -/
  | ansi
  deriving Repr, DecidableEq, Inhabited

def OutputForm.ofWord? : String → Option OutputForm
  | "scopes" => some .scopes
  | "json" => some .json
  | "ansi" => some .ansi
  | _ => none

inductive OptionName where
  | grammar
  | config
  | scope
  | theme
  | output
  | timeLimit
  deriving Repr, DecidableEq, Inhabited

namespace OptionName

def ofLong? : List Char → Option OptionName
  | chars =>
    match String.ofList chars with
    | "grammar" => some .grammar
    | "config" => some .config
    | "scope" => some .scope
    | "theme" => some .theme
    | "output" => some .output
    | "time-limit" => some .timeLimit
    | _ => none

def ofLetter? : Char → Option OptionName
  | 'g' => some .grammar
  | 'c' => some .config
  | 's' => some .scope
  | 't' => some .theme
  | 'o' => some .output
  | _ => none

end OptionName

/-- What a command line asks for. -/
structure Arguments where
  /-- The file to tokenize. -/
  file : String
  /-- Files of grammars. -/
  grammars : List String := []
  /-- The file of the registry's configuration. -/
  config : Option String := none
  /-- The scope name of the grammar to use, if not the first one. -/
  scope : Option String := none
  /-- The file of the theme. -/
  theme : Option String := none
  output : OutputForm := .scopes
  /-- A limit for each line, in milliseconds. -/
  timeLimit : Option Nat := none
  deriving Repr, DecidableEq, Inhabited

/-- Why a command line is refused. -/
inductive UsageError where
  | unknownOption (argument : String)
  | missingValue (argument : String)
  | invalidValue (value : String)
  | repeatedOption (option : OptionName)
  | unexpectedArgument (argument : String)
  | missingFile
  deriving Repr, DecidableEq, Inhabited

def UsageError.message : UsageError → String
  | .unknownOption argument => "unexpected argument '" ++ argument ++ "' found"
  | .missingValue argument => "a value is required for '" ++ argument ++ "' but none was supplied"
  | .invalidValue value => "invalid value '" ++ value ++ "'"
  | .repeatedOption _ => "an option cannot be used multiple times"
  | .unexpectedArgument argument => "unexpected argument '" ++ argument ++ "' found"
  | .missingFile => "the following required arguments were not provided: <FILE>"

/-- A command line being read: the file may still be missing. -/
structure Draft where
  file : Option String := none
  grammars : List String := []
  config : Option String := none
  scope : Option String := none
  theme : Option String := none
  output : Option OutputForm := none
  timeLimit : Option Nat := none

/-- The number of milliseconds that a text writes: digits, perhaps after a plus sign, that fit 64
bits. -/
def milliseconds? (text : String) : Option Nat :=
  let digits := match text.toList with
    | '+' :: digits => digits
    | digits => digits
  if digits.isEmpty || !digits.all Char.isDigit then none
  else
    let number := digits.foldl (fun value c => value * 10 + (c.toNat - '0'.toNat)) 0
    if number < 0x10000000000000000 then some number else none

def path? (text : String) : Option String := if text.isEmpty then none else some text

/-- The value of an option, if it can be read and the option has none yet. -/
def once {α : Type} (option : OptionName) (held : Option α) (value : Option α) (text : String) :
    Except UsageError (Option α) :=
  match held, value with
  | some _, _ => .error (.repeatedOption option)
  | none, none => .error (.invalidValue text)
  | none, some value => .ok (some value)

namespace Draft

/-- Takes the value of an option. -/
def set (draft : Draft) (option : OptionName) (value : String) : Except UsageError Draft :=
  match option with
  | .grammar =>
    match path? value with
    | some path => .ok { draft with grammars := draft.grammars ++ [path] }
    | none => .error (.invalidValue value)
  | .config => return { draft with config := ← once option draft.config (path? value) value }
  | .scope => return { draft with scope := ← once option draft.scope (some value) value }
  | .theme => return { draft with theme := ← once option draft.theme (path? value) value }
  | .output =>
    return { draft with output := ← once option draft.output (OutputForm.ofWord? value) value }
  | .timeLimit =>
    return { draft with timeLimit := ← once option draft.timeLimit (milliseconds? value) value }

def setFile (draft : Draft) (argument : String) : Except UsageError Draft :=
  match draft.file, path? argument with
  | some _, _ => .error (.unexpectedArgument argument)
  | none, none => .error (.invalidValue argument)
  | none, some path => .ok { draft with file := some path }

/-- The command line, if it has a file. -/
def finish (draft : Draft) : Except UsageError Arguments :=
  match draft.file with
  | none => .error .missingFile
  | some file => .ok {
      file := file
      grammars := draft.grammars
      config := draft.config
      scope := draft.scope
      theme := draft.theme
      output := draft.output.getD .scopes
      timeLimit := draft.timeLimit }

end Draft

inductive Argument where
  /-- The end of the options. -/
  | endOfOptions
  /-- An option, with its value if that is attached. -/
  | option (name : OptionName) (value : Option String)
  | unknown
  /-- No option. A hyphen alone is none. -/
  | plain
  deriving Repr, DecidableEq, Inhabited

def Argument.ofText (text : String) : Argument :=
  match text.toList with
  | ['-', '-'] => .endOfOptions
  | '-' :: '-' :: long =>
    let (word, value) := match Text.cutChars '=' long with
      | some (word, value) => (word, some (String.ofList value))
      | none => (long, none)
    match OptionName.ofLong? word with
    | some name => .option name value
    | none => .unknown
  | '-' :: letter :: attached =>
    match OptionName.ofLetter? letter, attached with
    | none, _ => .unknown
    | some name, [] => .option name none
    | some name, '=' :: value => .option name (some (String.ofList value))
    | some name, value => .option name (some (String.ofList value))
  | _ => .plain

def readArguments : List String → Draft → Except UsageError Draft
  | [], draft => .ok draft
  | argument :: rest, draft =>
    match Argument.ofText argument with
    | .plain => do readArguments rest (← draft.setFile argument)
    | .unknown => .error (.unknownOption argument)
    | .endOfOptions => rest.foldlM Draft.setFile draft
    | .option name (some value) => do readArguments rest (← draft.set name value)
    | .option name none =>
      match rest with
      | [] => .error (.missingValue argument)
      | value :: rest =>
        match Argument.ofText value with
        | .plain => do readArguments rest (← draft.set name value)
        | _ => .error (.missingValue argument)

def Arguments.ofList (arguments : List String) : Except UsageError Arguments := do
  (← readArguments arguments {}).finish

end ScopeLexer.Command

import ScopeLexer.Json.Decode
import ScopeLexer.Style.Color

/-!
What can go wrong when documents are loaded and grammars compiled. The wording of each error is here.
-/
namespace ScopeLexer

inductive FileError where
  | notFound
  | isDirectory
  | notADirectory
  /-- A name in the path, or the whole path, is too long. -/
  | nameTooLong
  /-- The path holds the character NUL. -/
  | nulInPath
  deriving Repr, DecidableEq, Inhabited

def FileError.message : FileError → String
  | .notFound => "No such file or directory (os error 2)"
  | .isDirectory => "Is a directory (os error 21)"
  | .notADirectory => "Not a directory (os error 20)"
  | .nameTooLong => "File name too long (os error 36)"
  | .nulInPath => "file name contained an unexpected NUL byte"

inductive CompileError where
  /-- A pattern is refused by the regex engine. -/
  | invalidPattern (pattern reason : String)
  /-- The grammar is not among those given. -/
  | missingGrammar (scopeName : String)
  /-- The bound on the steps was met; it is chosen so that this does not happen. -/
  | outOfSteps
  deriving Repr, DecidableEq, Inhabited

def CompileError.message : CompileError → String
  | .invalidPattern pattern reason => "Invalid regex pattern '" ++ pattern ++ "': " ++ reason
  | .missingGrammar scopeName => "No grammar provided for <" ++ scopeName ++ ">"
  | .outOfSteps => "Out of steps"

/-- What went wrong. -/
inductive Error where
  /-- A file cannot be read. -/
  | file (error : FileError)
  /-- A document cannot be read as what it should be. -/
  | document (error : Json.DecodeError)
  /-- The file of a document is there and gives no text. -/
  | unreadable (error : FileError)
  /-- A text is no colour. -/
  | invalidColor (text : String) (error : Style.ColorError)
  /-- A grammar has another scope name than the one it is registered under. -/
  | scopeMismatch (expected found : String)
  /-- No grammar is registered under a scope name. -/
  | grammarNotFound (scopeName : String)
  /-- A grammar cannot be compiled. -/
  | compile (error : CompileError)
  deriving Repr, DecidableEq, Inhabited

def Error.message : Error → String
  | .file error => "I/O error: " ++ error.message
  | .document error => "JSON parsing error: " ++ error.reason
  | .unreadable error => "JSON parsing error: " ++ error.message
  | .invalidColor text error => "invalid hex color '" ++ text ++ "': " ++ error.reason
  | .scopeMismatch expected found =>
    "grammar declares scope '" ++ found ++ "' but was registered as '" ++ expected ++ "'"
  | .grammarNotFound scopeName => "grammar '" ++ scopeName ++ "' not found"
  | .compile error => "grammar compilation error: " ++ error.message

/-- What an error was caused by, in words, where it wraps another. -/
def Error.cause : Error → Option String
  | .file error => some error.message
  | .document error => some error.reason
  | .unreadable error => some error.message
  | .compile error => some error.message
  | .invalidColor _ _ | .scopeMismatch _ _ | .grammarNotFound _ => none

end ScopeLexer

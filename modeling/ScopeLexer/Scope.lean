import ScopeLexer.Text.Blank
import ScopeLexer.Text.Pieces

/-!
Scope names such as `string.quoted.double`: atoms divided by dots. A scope covers every scope that it
equals or that continues it with a dot, so `string` covers `string.quoted` and not `strings`. A rule
may give several scopes at once, divided by spaces.
-/
namespace ScopeLexer

/-- A scope name, without blanks at its ends. -/
structure Scope where
  text : String
  deriving Repr, DecidableEq, Inhabited

namespace Scope

/-- The scope written by a text: blanks at the ends do not count. -/
def ofText (text : String) : Scope := ⟨Text.trim text⟩

/-- The names in a list of scopes divided by spaces, as written. Empty pieces do not count. -/
def pathPieces (path : String) : List String :=
  (Text.pieces ' ' path).filter (· ≠ "")

/-- The scopes in a list of scopes divided by spaces. -/
def splitPath (path : String) : List Scope :=
  (pathPieces path).map ofText

def isEmpty (scope : Scope) : Bool := scope.text.isEmpty

/-- The number of atoms. A scope without name has none. -/
def atomCount (scope : Scope) : Nat :=
  if scope.isEmpty then 0 else (Text.piecesOf '.' scope.text.toList).length

/-- Whether a name covers another, on characters: nothing or a dot follows it there. -/
def coversChars (name other : List Char) : Bool :=
  match name with
  | [] => true
  | _ :: _ =>
    match Text.dropStart? name other with
    | some [] => true
    | some (c :: _) => c = '.'
    | none => false

/-- Whether the scope named by the first text covers the one named by the second. The empty name
covers every name. -/
def coversText (name other : String) : Bool := coversChars name.toList other.toList

/-- Whether a scope covers the scope named by a text. -/
def covers (scope : Scope) (other : String) : Bool := coversText scope.text other

def bracketed (scope : Scope) : String := "<" ++ scope.text ++ ">"

end Scope
end ScopeLexer

import ScopeLexer.Scope
import ScopeLexer.Theme.Basic

/-!
The scopes that enclose a place in a document, each with the metadata that the path up to it gives. A
scope changes the metadata of the scopes around it only where it has something to say: a language, a
kind of token, or a style that the theme gives it inside the scopes around it.
-/
namespace ScopeLexer

open Style

/-- What decides the metadata of a scope. -/
structure Styling where
  theme : Theme
  /-- The number of the language at the top. -/
  initialLanguage : Nat := 0
  /-- Scopes with the number of the language inside them. -/
  embeddedLanguages : Table Nat := {}

namespace Styling

/-- The number of the language that a scope brings, 0 if it brings none: that of the last key, in key
order, that covers the scope. -/
def languageOf (styling : Styling) (scope : String) : Nat :=
  ((styling.embeddedLanguages.entries.reverse.find? fun entry =>
    Scope.coversText entry.1 scope).map Prod.snd).getD 0

/-- The metadata before any scope. -/
def base (styling : Styling) : Metadata :=
  Metadata.unset.set {
    language := styling.initialLanguage
    fontStyle := styling.theme.defaults.fontStyle
    foreground := styling.theme.defaults.foreground
    background := styling.theme.defaults.background }

/-- What a scope changes inside others, the innermost first. -/
def update (styling : Styling) (scope : String) (ancestors : List String) : Update :=
  let style := (styling.theme.matchScope scope ancestors).getD ⟨none, 0, 0⟩
  { language := styling.languageOf scope
    tokenType := TokenType.ofScope scope
    fontStyle := style.fontStyle
    foreground := style.foreground
    background := style.background }

end Styling

/-- The scopes that enclose a place, with their metadata. There is at least one. -/
inductive ScopePath where
  | root (scope : Scope) (metadata : Metadata)
  | inside (outer : ScopePath) (scope : Scope) (metadata : Metadata)
  deriving Repr, DecidableEq, Inhabited

namespace ScopePath

/-- The innermost scope. -/
def scope : ScopePath → Scope
  | .root scope _ => scope
  | .inside _ scope _ => scope

/-- The metadata that all scopes give together. -/
def metadata : ScopePath → Metadata
  | .root _ metadata => metadata
  | .inside _ _ metadata => metadata

/-- The scopes with their metadata, the innermost first. -/
def entries : ScopePath → List (Scope × Metadata)
  | .root scope metadata => [(scope, metadata)]
  | .inside outer scope metadata => (scope, metadata) :: outer.entries

/-- The names of the scopes, the innermost first. -/
def ancestors : ScopePath → List String
  | .root scope _ => [scope.text]
  | .inside outer scope _ => scope.text :: outer.ancestors

/-- The names of the scopes, the outermost first. -/
def names (path : ScopePath) : List String := path.ancestors.reverse

/-- The path of the scope of a grammar alone. -/
def ofGrammar (styling : Styling) (scopeName : String) : ScopePath :=
  let scope := Scope.ofText scopeName
  .root scope (styling.base.set (styling.update scope.text []))

/-- The path with one more scope inside. -/
def pushOne (styling : Styling) (path : ScopePath) (name : String) : ScopePath :=
  .inside path (Scope.ofText name) (path.metadata.set (styling.update name path.ancestors))

/-- The path with the scopes of a list inside, divided by spaces. Without a list it stays as it is. -/
def push (styling : Styling) (path : ScopePath) : Option String → ScopePath
  | none => path
  | some names => (Scope.pathPieces names).foldl (pushOne styling) path

/-- The path in the form that debug output has. -/
def describe (path : ScopePath) : String := " ".intercalate path.names

end ScopePath
end ScopeLexer

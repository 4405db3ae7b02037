import ScopeLexer.Scope
import ScopeLexer.Warning
import ScopeLexer.Style.Color
import ScopeLexer.Style.FontStyle
import ScopeLexer.Theme.Document

/-!
The rules of a theme, one for each scope selector. A selector such as `source.js meta.function > string`
names a scope and the scopes that must enclose it, each somewhere outside the one before or, with `>`,
directly.
-/
namespace ScopeLexer.Theme

open Style

/-- A scope that must enclose another. -/
structure Parent where
  /-- Nothing may stand between. -/
  direct : Bool
  scope : Scope
  deriving Repr, DecidableEq, Inhabited

/-- A rule for one selector. -/
structure Rule where
  /-- The scope that the rule is for; the empty one stands for the defaults. -/
  scope : String
  /-- The scopes that must enclose it, the innermost first. -/
  parents : Option (List Parent)
  /-- The place of the rule in the theme. -/
  index : Nat
  fontStyle : Option FontStyle
  foreground : Option String
  background : Option String
  deriving Repr, DecidableEq, Inhabited

/-- The parents that the words before the last one name, read from the right. -/
def parentsOf : Bool → List String → List Parent
  | _, [] => []
  | direct, word :: words =>
    if word = ">" then parentsOf true words
    else ⟨direct, Scope.ofText word⟩ :: parentsOf false words

/-- The scope that a selector is for, and its parents. -/
def parseSelector (selector : String) : String × Option (List Parent) :=
  match (Text.words selector).reverse with
  | [] => ("", none)
  | [scope] => (scope, none)
  | scope :: words => (scope, some (parentsOf false words))

/-- A colour that a rule sets, if it is one. -/
def validColor (warn : String → Warning) (color : Option String) : Option String × List Warning :=
  match unlessInherited color with
  | none => (none, [])
  | some color => if Color.isHex color then (some color, []) else (none, [warn color])

/-- The rules of an entry, one for each of its selectors. -/
def Entry.rules (entry : Entry) (index : Nat) : List Rule × List Warning :=
  let (foreground, foregroundWarnings) := validColor .invalidForeground entry.settings.foreground
  let (background, backgroundWarnings) := validColor .invalidBackground entry.settings.background
  let rules := (entry.scopes.getD [""]).map fun selector =>
    let (scope, parents) := parseSelector (Text.trim selector)
    { scope := scope
      parents := parents
      index := index
      fontStyle := entry.settings.fontStyle.map FontStyle.ofText
      foreground := foreground
      background := background }
  (rules, foregroundWarnings ++ backgroundWarnings)

def rulesOf (entries : List Entry) : List Rule × List Warning :=
  let parts := entries.mapIdx fun index entry => entry.rules index
  (parts.flatMap Prod.fst, parts.flatMap Prod.snd)

/-- The order of parents: those anywhere before direct ones, then by scope. -/
def Parent.compare (left right : Parent) : Ordering :=
  (Ord.compare left.direct right.direct).then (Ord.compare left.scope.text right.scope.text)

/-- The order of lists of parents of the same length. -/
def compareItems : List Parent → List Parent → Ordering
  | [], [] => .eq
  | [], _ :: _ => .lt
  | _ :: _, [] => .gt
  | left :: lefts, right :: rights => (left.compare right).then (compareItems lefts rights)

/-- The order of requirements: none first, then fewer parents, then parent by parent. -/
def compareParents : Option (List Parent) → Option (List Parent) → Ordering
  | none, none => .eq
  | none, some _ => .lt
  | some _, none => .gt
  | some lefts, some rights =>
    (Ord.compare lefts.length rights.length).then (compareItems lefts rights)

/-- The order in which rules are applied: by scope, by parents, then as written. -/
def Rule.compare (left right : Rule) : Ordering :=
  (Ord.compare left.scope right.scope).then
    ((compareParents left.parents right.parents).then (Ord.compare left.index right.index))

/-- Rules in the order in which they are applied. -/
def sortRules (rules : List Rule) : List Rule :=
  rules.mergeSort fun left right => (left.compare right).isLE

/-- Whether the scopes that enclose another, the innermost first, satisfy the requirements. Each
requirement takes the first scope that satisfies it. -/
def matchesParents : List Parent → List String → Bool
  | [], _ => true
  | parent :: parents, ancestors =>
    if parent.direct then
      match ancestors with
      | [] => false
      | ancestor :: outer => parent.scope.covers ancestor && matchesParents parents outer
    else
      match ancestors.dropWhile fun ancestor => !parent.scope.covers ancestor with
      | [] => false
      | _ :: outer => matchesParents parents outer

end ScopeLexer.Theme

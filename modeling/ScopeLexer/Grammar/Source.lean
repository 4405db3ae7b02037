import ScopeLexer.Table

/-!
Grammars as they are written. The rules of a grammar are numbered, and a rule names the rules inside it
by their numbers; the number is the rule's place, which tells it from every other rule of the grammar
even if the two read the same. A rule stands after the rules inside it.
-/
namespace ScopeLexer.Grammar

/-- The number of a rule among the rules of its grammar. -/
abbrev Place := Nat

/-- A rule as written. Which fields are there decides what kind of rule it is. -/
structure RuleSource where
  /-- What the rule stands for, if it stands for other rules. -/
  reference : Option String := none
  /-- The scopes of all that the rule matches. -/
  name : Option String := none
  /-- The scopes of what lies between the start and the end. -/
  contentName : Option String := none
  matchPattern : Option String := none
  /-- Rules for the groups of a match, by group number as text; also for starts and ends that have no
  rules of their own. -/
  captures : Option (Table Place) := none
  beginPattern : Option String := none
  beginCaptures : Option (Table Place) := none
  endPattern : Option String := none
  endCaptures : Option (Table Place) := none
  whilePattern : Option String := none
  whileCaptures : Option (Table Place) := none
  /-- The rules tried inside this one. -/
  patterns : Option (List Place) := none
  /-- Rules that references inside this rule can name. -/
  repository : Option (Table Place) := none
  /-- The rules inside are tried before the end. -/
  endLast : Bool := false
  deriving Repr, DecidableEq, Inhabited

end ScopeLexer.Grammar

namespace ScopeLexer

structure GrammarSource where
  scopeName : String := ""
  name : Option String := none
  displayName : Option String := none
  fileTypes : List String := []
  firstLineMatch : Option String := none
  /-- The rules tried at the top level. -/
  patterns : List Grammar.Place := []
  /-- Rules that references can name. -/
  repository : Option (Table Grammar.Place) := none
  /-- Rules that are tried wherever their selector holds. -/
  injections : Option (Table Grammar.Place) := none
  /-- Where the grammar is injected when it is injected into another. -/
  injectionSelector : Option String := none
  /-- The scope names of the grammars that the grammar is injected into. -/
  injectTo : List String := []
  /-- All rules, by place. -/
  rules : Array Grammar.RuleSource := #[]
  deriving Repr, DecidableEq, Inhabited

namespace GrammarSource

/-- The rule at a place. Beyond the last place there are rules that match nothing. -/
def rule (grammar : GrammarSource) (place : Grammar.Place) : Grammar.RuleSource :=
  grammar.rules[place]?.getD {}

end GrammarSource
end ScopeLexer

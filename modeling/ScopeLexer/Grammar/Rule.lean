import ScopeLexer.Pattern.Basic
import ScopeLexer.Pattern.RuleName
import ScopeLexer.Selector.Basic

/-!
Compiled grammars: rules that name one another and their patterns by number. Rules that came from other
grammars are among them, so references have been resolved.
-/
namespace ScopeLexer.Grammar

abbrev RuleId := Nat

/-- The number of a pattern of a compiled grammar. -/
abbrev PatternId := Nat

/-- Rules for the groups of a match, by group. There is room up to the largest group that has a rule. -/
structure CaptureTable where
  rules : Array (Option RuleId) := #[]
  deriving Repr, DecidableEq, Inhabited

namespace CaptureTable

/-- One more than the largest group that has a rule. -/
def size (table : CaptureTable) : Nat := table.rules.size

def get? (table : CaptureTable) (group : Nat) : Option RuleId := (table.rules[group]?).join

/-- The numbers of the rules in the table. -/
def ids (table : CaptureTable) : List RuleId := table.rules.toList.filterMap id

/-- A table with room for some groups, none of which has a rule. -/
def withRoom (groups : List Nat) : CaptureTable :=
  ⟨Array.replicate ((groups.map (· + 1)).foldl max 0) none⟩

/-- Gives a group a rule, in place of any rule it had. -/
def put (table : CaptureTable) (slot : Nat × RuleId) : CaptureTable :=
  ⟨table.rules.setIfInBounds slot.1 (some slot.2)⟩

/-- Gives groups their rules, one after the other. -/
def fill (table : CaptureTable) (slots : List (Nat × RuleId)) : CaptureTable :=
  slots.foldl put table

end CaptureTable

/-- A rule that matches within a line. -/
structure SingleRule where
  name : Option String
  pattern : PatternId
  captures : CaptureTable
  deriving Repr, DecidableEq, Inhabited

/-- A rule that only holds others. -/
structure GroupRule where
  name : Option String
  contentName : Option String
  patterns : List RuleId
  /-- Some of the rules it should hold could not be found. -/
  incomplete : Bool
  deriving Repr, DecidableEq, Inhabited

/-- A rule with a start and an end, which may lie on different lines. -/
structure RegionRule where
  name : Option String
  contentName : Option String
  start : PatternId
  startCaptures : CaptureTable
  stop : PatternId
  /-- The end refers to what the start captured. -/
  stopHasReferences : Bool
  stopCaptures : CaptureTable
  /-- The rules inside are tried before the end. -/
  stopLast : Bool
  patterns : List RuleId
  incomplete : Bool
  deriving Repr, DecidableEq, Inhabited

/-- A rule with a start and a condition that each further line must satisfy. -/
structure BlockRule where
  name : Option String
  contentName : Option String
  start : PatternId
  startCaptures : CaptureTable
  condition : PatternId
  /-- The condition refers to what the start captured. -/
  conditionHasReferences : Bool
  conditionCaptures : CaptureTable
  patterns : List RuleId
  incomplete : Bool
  deriving Repr, DecidableEq, Inhabited

/-- A rule for a group of a match. -/
structure CaptureRule where
  name : Option String
  contentName : Option String
  /-- The rule with which the text of the group is tokenized again. -/
  retokenize : Option RuleId
  deriving Repr, DecidableEq, Inhabited

/-- A compiled rule. -/
inductive Rule where
  | single (rule : SingleRule)
  | group (rule : GroupRule)
  | region (rule : RegionRule)
  | block (rule : BlockRule)
  | capture (rule : CaptureRule)
  /-- A number that has been given out to a rule that is still being compiled. -/
  | reserved
  deriving Repr, DecidableEq, Inhabited

namespace Rule

/-- The scopes of all that the rule matches. -/
def name : Rule → Option String
  | .single rule => rule.name
  | .group rule => rule.name
  | .region rule => rule.name
  | .block rule => rule.name
  | .capture rule => rule.name
  | .reserved => none

/-- The scopes of what lies between the start and the end. -/
def contentName : Rule → Option String
  | .group rule => rule.contentName
  | .region rule => rule.contentName
  | .block rule => rule.contentName
  | .capture rule => rule.contentName
  | .single _ | .reserved => none

def patterns : Rule → List RuleId
  | .group rule => rule.patterns
  | .region rule => rule.patterns
  | .block rule => rule.patterns
  | .single _ | .capture _ | .reserved => []

/-- The pattern by which the rule is entered. -/
def entryPattern : Rule → Option PatternId
  | .single rule => some rule.pattern
  | .region rule => some rule.start
  | .block rule => some rule.start
  | .group _ | .capture _ | .reserved => none

/-- Whether nothing is left of a rule because what it should hold could not be found. -/
def isHollow : Rule → Bool
  | .group rule => rule.incomplete && rule.patterns.isEmpty
  | .region rule => rule.incomplete && rule.patterns.isEmpty
  | .block rule => rule.incomplete && rule.patterns.isEmpty
  | .single _ | .capture _ | .reserved => false

end Rule

/-- A rule that is tried wherever its condition holds. -/
structure Injection where
  /-- The selector as written. -/
  selector : String
  matcher : Matcher
  priority : Priority
  rule : RuleId
  deriving Repr, Inhabited

end ScopeLexer.Grammar

namespace ScopeLexer

open Grammar

/-- A grammar with all that it needs, compiled. -/
structure CompiledGrammar where
  scopeName : String
  /-- The rule for the top level. -/
  root : RuleId
  rules : Array Rule
  patterns : Array Pattern
  /-- Injections in the order in which they are tried. -/
  injections : List Injection
  deriving Inhabited

namespace CompiledGrammar

/-- The rule of a number. A number that the grammar does not have stands for a rule that matches
nothing. -/
def rule (grammar : CompiledGrammar) (id : RuleId) : Rule := grammar.rules[id]?.getD .reserved

/-- What a walk over the rules in a rule has found: the groups entered, and the rules that match
something, the last one first. -/
structure Flattening where
  entered : List RuleId
  found : List RuleId := []

/-- Walks over rules in order. Groups are entered in place, each once. The first argument bounds the
depth of groups in groups. -/
def flatten (grammar : CompiledGrammar) : Nat → List RuleId → Flattening → Flattening
  | 0, _, walk => walk
  | depth + 1, ids, walk =>
    ids.foldl (fun walk id =>
      match grammar.rule id with
      | .single _ | .region _ | .block _ => { walk with found := id :: walk.found }
      | .group rule =>
        if walk.entered.contains id then walk
        else flatten grammar depth rule.patterns { walk with entered := id :: walk.entered }
      | .capture _ | .reserved => walk) walk

/-- The rules tried inside a rule, groups being replaced by what they hold. -/
def candidates (grammar : CompiledGrammar) (id : RuleId) : List RuleId :=
  if id < grammar.rules.size then
    (grammar.flatten (grammar.rules.size + 1) (grammar.rule id).patterns
      { entered := [id] }).found.reverse
  else []

end CompiledGrammar
end ScopeLexer

import ScopeLexer.Scope

/-!
Scope selectors: conditions on the path of scopes at a place in a document. A path of names holds where
the names can be found in that order, each covering a scope of the path; conditions are joined and
negated.
-/
namespace ScopeLexer

inductive Matcher where
  /-- The names are found in the path, in this order. -/
  | path (names : List Scope)
  /-- All conditions hold. -/
  | all (conditions : List Matcher)
  /-- Some condition holds. -/
  | some (conditions : List Matcher)
  /-- The condition does not hold. -/
  | not (condition : Matcher)
  deriving Repr, Inhabited

namespace Matcher

/-- Whether names are found in a path, outermost first. Each name takes the first scope it covers; a
scope without name is never taken. -/
def pathFound : List Scope → List String → Bool
  | [], _ => true
  | name :: names, scopes =>
    match scopes.dropWhile fun scope => scope.isEmpty || !name.covers scope with
    | [] => false
    | _ :: inner => pathFound names inner

mutual

/-- Whether a condition holds for a path of scopes, outermost first. -/
def holds (scopes : List String) : Matcher → Bool
  | .path names => decide (names.length ≤ scopes.length) && pathFound names scopes
  | .all conditions => allHold scopes conditions
  | .some conditions => someHolds scopes conditions
  | .not condition => !holds scopes condition

def allHold (scopes : List String) : List Matcher → Bool
  | [] => true
  | condition :: conditions => holds scopes condition && allHold scopes conditions

def someHolds (scopes : List String) : List Matcher → Bool
  | [] => false
  | condition :: conditions => holds scopes condition || someHolds scopes conditions

end

mutual

def describe : Matcher → String
  | .path names => " ".intercalate (names.map Scope.text)
  | .all conditions => "(" ++ " & ".intercalate (describeList conditions) ++ ")"
  | .some conditions => "(" ++ " | ".intercalate (describeList conditions) ++ ")"
  | .not condition => "-" ++ describe condition

def describeList : List Matcher → List String
  | [] => []
  | condition :: conditions => describe condition :: describeList conditions

end

end Matcher

/-- When the rules of an injection are tried: before the rules at hand, or after them. -/
inductive Priority where
  | left
  | default
  | right
  deriving Repr, DecidableEq, Inhabited

namespace Priority

def rank : Priority → Nat
  | .left => 0
  | .default => 1
  | .right => 2

def word : Priority → String
  | .left => "Left"
  | .default => "Default"
  | .right => "Right"

end Priority

/-- A selector: a condition, and the priority of what it selects. -/
structure Selector where
  matcher : Matcher
  priority : Priority
  deriving Repr, Inhabited

end ScopeLexer

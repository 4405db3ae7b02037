import ScopeLexer.Regex.CharSet

/-!
Patterns as expressions. The expression is what a pattern means once its text has been read: options
such as "ignore case" have been moved onto the texts they apply to, and groups have numbers. Preparation
fills in what depends on the whole pattern: how repetitions are run, how far a look-behind reaches, and
what becomes of a group when a match has to go back.
-/
namespace ScopeLexer.Regex

/-- Conditions on a position of the text, which take no characters. -/
inductive Anchor where
  /-- The start of the text. -/
  | textStart
  /-- The end of the text. -/
  | textEnd
  /-- The end of the text, or before a line end that ends it. -/
  | lastLineEnd
  /-- The start of the text or after a line end, but not at the end of the text. -/
  | lineStart
  /-- Before a line end or at the end of the text. -/
  | lineEnd
  /-- Where the search started. -/
  | searchStart
  /-- Between a word character and something else. -/
  | wordEdge (asciiOnly : Bool)
  /-- Anywhere else than at a word edge. -/
  | notWordEdge (asciiOnly : Bool)
  deriving Repr, DecidableEq, Inhabited

/-- What an expression does that takes no characters and depends on none. -/
inductive Verb where
  /-- The match starts here, whatever was taken before. -/
  | keep
  /-- Nothing. -/
  | pass
  /-- There is no match this way. -/
  | fail
  /-- There is no match this way, and that is known from the start. -/
  | impossible
  /-- There is no match from the present start, whichever way. -/
  | abandon
  deriving Repr, DecidableEq, Inhabited

structure Rounds where
  least : Nat
  most : Option Nat
  /-- Whether fewer rounds are tried before more. -/
  reluctant : Bool
  /-- Whether a round may take nothing, so that such a round has to be noticed. -/
  mayStall : Bool := false
  /-- Whether the rounds that must be run are run one after the other, whatever they take. Otherwise a
  round that takes nothing is the last, even before the least number is reached. -/
  unrolled : Bool := true
  /-- The groups whose change keeps a round that takes nothing from being the last. -/
  watched : List Nat := []
  deriving Repr, DecidableEq, Inhabited

/-- What a back-reference names: groups, the last one first, of which the first that is filled and fits
counts. -/
structure Reference where
  groups : List Nat
  /-- Whether one of the groups is still open where the reference stands. -/
  fromInside : Bool := false
  /-- How many calls further out the group has to have been filled, if that is asked for. -/
  level : Option Int := none
  deriving Repr, DecidableEq, Inhabited

/-- The group that is called, by its number or by its name. -/
structure Callee where
  index : Nat
  /-- What the pattern calls it. -/
  written : String
  byName : Bool
  /-- Whether the call stands in the group that it calls, at any depth. -/
  recursive : Bool := false
  deriving Repr, DecidableEq, Inhabited

/-- What is special about a group. -/
structure GroupTraits where
  /-- Whether the group gets back its earlier span when the match goes back. -/
  restored : Bool := false
  /-- Whether the group is called. -/
  called : Bool := false
  /-- Whether the group is called from inside itself. -/
  recursive : Bool := false
  deriving Repr, DecidableEq, Inhabited

/-- The numbers of characters that a look-behind goes back. -/
structure Reach where
  least : Nat
  most : Option Nat
  deriving Repr, DecidableEq, Inhabited

/-- A pattern. -/
inductive Expr where
  /-- Some characters. -/
  | text (chars : List Char) (ignoreCase : Bool)
  /-- Any character, or any but a line end. -/
  | any (lineEnds : Bool)
  /-- A character of a word. -/
  | word (negated asciiOnly : Bool)
  | oneOf (set : CharSet) (negated : Bool)
  /-- One expression after the other. -/
  | list (items : List Expr)
  /-- The first of the expressions that leads to a match. -/
  | choice (branches : List Expr)
  | many (body : Expr) (rounds : Rounds)
  | group (index : Nat) (traits : GroupTraits) (body : Expr)
  /-- A part with options of its own. -/
  | scoped (body : Expr)
  | atomic (body : Expr)
  /-- One expression or another, after a test or without it. -/
  | conditional (test yes no : Expr)
  | lookAhead (negated : Bool) (body : Expr)
  | lookBehind (negated : Bool) (reach : Reach) (body : Expr)
  | backref (reference : Reference) (ignoreCase : Bool)
  /-- Whether one of the groups is filled. -/
  | filled (reference : Reference)
  | call (callee : Callee)
  | anchor (condition : Anchor)
  | verb (verb : Verb)
  deriving Repr, Inhabited

namespace Expr

def empty : Expr := .text [] false

/-- An expression of one character that is never found. -/
def never : Expr := .oneOf .empty false

/-- The expressions one after the other, a single one as it is. -/
def sequence : List Expr → Expr
  | [] => empty
  | [one] => one
  | items => .list items

/-- The expressions to choose from, a single one as it is. -/
def alternatives : List Expr → Expr
  | [] => empty
  | [one] => one
  | branches => .choice branches

/-- The characters that an expression of exactly one character takes. -/
def taken? : Expr → Option (Char → Bool)
  | .text [c] false => some (· = c)
  | .any lineEnds => some fun d => lineEnds || d ≠ '\n'
  | .word negated asciiOnly => some fun d => isWordChar asciiOnly d != negated
  | .oneOf set negated => some fun d => set.contains d != negated
  | _ => none

/-- Whether an expression is a text with characters in it, or takes one character of a set: each match
then takes the same number of characters. -/
def isPlain : Expr → Bool
  | .text chars _ => !chars.isEmpty
  | .any _ | .word _ _ | .oneOf _ _ => true
  | _ => false

mutual

/-- All that an expression collects with `own` from its parts, from the left, the whole first. -/
def collect {α : Type} (own : Expr → List α) : Expr → List α
  | .list items => own (.list items) ++ collectAll own items
  | .choice branches => own (.choice branches) ++ collectAll own branches
  | .many body rounds => own (.many body rounds) ++ body.collect own
  | .group index traits body => own (.group index traits body) ++ body.collect own
  | .scoped body => own (.scoped body) ++ body.collect own
  | .atomic body => own (.atomic body) ++ body.collect own
  | .conditional test yes no =>
    own (.conditional test yes no) ++ test.collect own ++ yes.collect own ++ no.collect own
  | .lookAhead negated body => own (.lookAhead negated body) ++ body.collect own
  | .lookBehind negated reach body => own (.lookBehind negated reach body) ++ body.collect own
  | expr => own expr

/-- All that some expressions collect. -/
def collectAll {α : Type} (own : Expr → List α) : List Expr → List α
  | [] => []
  | expr :: rest => expr.collect own ++ collectAll own rest

end

mutual

/-- The expression with each part replaced by what `change` makes of it, the parts inside it first. -/
def everywhere (change : Expr → Expr) : Expr → Expr
  | .list items => change (.list (allEverywhere change items))
  | .choice branches => change (.choice (allEverywhere change branches))
  | .many body rounds => change (.many (body.everywhere change) rounds)
  | .group index traits body => change (.group index traits (body.everywhere change))
  | .scoped body => change (.scoped (body.everywhere change))
  | .atomic body => change (.atomic (body.everywhere change))
  | .conditional test yes no =>
    change (.conditional (test.everywhere change) (yes.everywhere change) (no.everywhere change))
  | .lookAhead negated body => change (.lookAhead negated (body.everywhere change))
  | .lookBehind negated reach body => change (.lookBehind negated reach (body.everywhere change))
  | expr => change expr

/-- Some expressions, in each of which all parts are replaced. -/
def allEverywhere (change : Expr → Expr) : List Expr → List Expr
  | [] => []
  | expr :: rest => expr.everywhere change :: allEverywhere change rest

end

/-- The groups that back-references in an expression name, each as often as it is named. -/
def references (expr : Expr) : List Nat :=
  expr.collect fun
    | .backref reference _ => reference.groups
    | .filled reference => reference.groups
    | _ => []

def calls (expr : Expr) : List Callee :=
  expr.collect fun
    | .call callee => [callee]
    | _ => []

/-- The groups of an expression, each with its body. -/
def groupBodies (expr : Expr) : List (Nat × Expr) :=
  expr.collect fun
    | .group index _ body => [(index, body)]
    | _ => []

end Expr
end ScopeLexer.Regex

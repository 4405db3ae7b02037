import ScopeLexer.Regex.Calls
import ScopeLexer.Regex.CodeSize
import ScopeLexer.Regex.LookBehind
import ScopeLexer.Regex.Needed

/-!
What is settled once all of a pattern has been read. Texts where case does not count are spelled out,
look-behinds are settled, and repetitions that give nothing back are made atomic. Then repetitions are
told how they are run and which groups they watch, and groups whether they get back their earlier spans.
-/
namespace ScopeLexer.Regex

/-- A pattern that is ready to be searched for. -/
structure Program where
  expr : Expr
  /-- The number of groups. -/
  groups : Nat
  /-- The groups that are called, with their numbers, and the whole pattern if it is. -/
  callees : List (Nat × GroupTraits × Expr) := []
  /-- Whether a back-reference asks how many calls further out a group was filled. -/
  asksLevels : Bool := false
  /-- Characters that every match takes. -/
  needed : List Char := []
  deriving Inhabited

/-- The largest number of rounds, and of bytes, up to which a repeated text is written out. -/
def longestWrittenOut : Nat := 100

/-- The number of groups that can be told apart when their spans are kept. All from this one on are
treated alike. -/
def groupsToldApart : Nat := 32

namespace Expr

/-- Puts together the texts that follow each other. -/
def mergeTexts : List Expr → List Expr
  | [] => []
  | expr :: rest =>
    match expr, mergeTexts rest with
    | .text chars ignoreCase, .text more moreIgnoreCase :: others =>
      if ignoreCase = moreIgnoreCase then .text (chars ++ more) ignoreCase :: others
      else .text chars ignoreCase :: .text more moreIgnoreCase :: others
    | expr, others => expr :: others

/-- Puts together the texts that follow each other, wherever they stand. -/
def joinTexts (expr : Expr) : Expr :=
  expr.everywhere fun
    | .list items => .list (mergeTexts items)
    | other => other

/-- A repetition of a prepared body. A short text that is repeated an exact number of times is written
out. -/
def writtenOut (body : Expr) (rounds : Rounds) : Expr :=
  match body with
  | .text chars false =>
    let bytes := (String.ofList chars).utf8ByteSize
    if rounds.isExact && 1 < rounds.least && rounds.least ≤ longestWrittenOut &&
        bytes * rounds.least ≤ longestWrittenOut then
      .text (List.replicate rounds.least chars).flatten false
    else .many body rounds
  | _ => .many body rounds

end Expr

/-- Prepares with the bodies of the groups at hand: those prepared so far, and the others as they were
read. -/
abbrev Preparing := StateT Bodies (Except Error)

namespace Expr

mutual

/-- Prepares an expression. `used` are the groups that are named or called; in a look-behind every
character of a text stands for one. -/
def prepare (used : List Nat) (inLookBehind : Bool) : Expr → Preparing Expr
  | .text chars ignoreCase =>
    return if ignoreCase then spelledOut inLookBehind chars else .text chars false
  | .list items => do return .list (chained (← prepareAll used inLookBehind items))
  | .choice branches => do return .choice (← prepareAll used inLookBehind branches)
  | .many body rounds => do
    let mayStall := rounds.most ≠ some 0 && (← get).mayBeEmpty body
    return writtenOut (← body.prepare used inLookBehind) { rounds with mayStall }
  | .group index traits body => do
    let body ← body.prepare used inLookBehind
    modify fun bodies => bodies.map fun entry => if entry.1 = index then (index, body) else entry
    return .group index traits body
  | .scoped body => do return .scoped (← body.prepare used inLookBehind)
  | .atomic body => do return .atomic (← body.prepare used inLookBehind)
  | .conditional test yes no => do
    let test ← test.prepare used inLookBehind
    let yes ← yes.prepare used inLookBehind
    return .conditional test yes (← no.prepare used inLookBehind)
  | .lookAhead negated body => do return .lookAhead negated (← body.prepare used inLookBehind)
  | .lookBehind negated _ body => do
    if !(← get).allowsBehind negated body then throw .badLookBehind
    let body ← body.prepare used true
    let isUsed (expr : Expr) : Bool :=
      !expr.calls.isEmpty || expr.groupBodies.any fun entry => used.contains entry.1
    let divisions := (body.collect fun
      | .choice _ => [()]
      | _ => []).length
    (← get).settleBehind isUsed negated divisions body
  | expr => return expr

/-- Prepares some expressions, from the left. -/
def prepareAll (used : List Nat) (inLookBehind : Bool) : List Expr → Preparing (List Expr)
  | [] => return []
  | expr :: rest => do
    let expr ← expr.prepare used inLookBehind
    return expr :: (← prepareAll used inLookBehind rest)

end

mutual

/-- The groups of an expression that a match can pass by or pass more than once. `inside` says that
this holds of the whole expression. -/
def passedBy (inside : Bool) : Expr → List Nat
  | .list items => allPassedBy inside items
  | .choice branches => allPassedBy true branches
  | .many body rounds => body.passedBy (inside || !rounds.isExact)
  | .group index traits body =>
    let inside := inside || traits.called || traits.recursive
    (if inside then [index] else []) ++ body.passedBy inside
  | .scoped body | .atomic body => body.passedBy inside
  | .conditional test yes no => test.passedBy true ++ yes.passedBy true ++ no.passedBy true
  | .lookAhead negated body | .lookBehind negated _ body => body.passedBy (inside || negated)
  | _ => []

/-- The groups of some expressions that a match can pass by or pass more than once. -/
def allPassedBy (inside : Bool) : List Expr → List Nat
  | [] => []
  | expr :: rest => expr.passedBy inside ++ allPassedBy inside rest

end

/-- The expression with the groups marked that get back their earlier spans. -/
def withRestored (indices : List Nat) (expr : Expr) : Expr :=
  let restored (index : Nat) : Bool :=
    if index < groupsToldApart then indices.contains index
    else indices.any (groupsToldApart ≤ ·)
  expr.everywhere fun
    | .group index traits body => .group index { traits with restored := restored index } body
    | other => other

mutual

/-- The groups of an expression that the repetition around it watches over: those that no positive
look-around and no repetition inside, of which a round can take nothing, encloses. -/
def ownGroups : Expr → List Nat
  | .list items | .choice items => allOwnGroups items
  | .many body rounds => if rounds.mayStall then [] else body.ownGroups
  | .group index _ body => index :: body.ownGroups
  | .scoped body | .atomic body => body.ownGroups
  | .conditional test yes no => test.ownGroups ++ yes.ownGroups ++ no.ownGroups
  | .lookAhead negated body | .lookBehind negated _ body => if negated then body.ownGroups else []
  | _ => []

/-- The groups of some expressions that the repetition around them watches over. -/
def allOwnGroups : List Expr → List Nat
  | [] => []
  | expr :: rest => expr.ownGroups ++ allOwnGroups rest

end

mutual

/-- Whether an expression has a group, or calls one, outside look-arounds. -/
def fillsGroups : Expr → Bool
  | .list items | .choice items => anyFillsGroups items
  | .many body rounds => rounds.most ≠ some 0 && body.fillsGroups
  | .group _ _ _ | .call _ => true
  | .scoped body | .atomic body => body.fillsGroups
  | .conditional test yes no => test.fillsGroups || yes.fillsGroups || no.fillsGroups
  | _ => false

/-- Whether one of some expressions has a group, or calls one, outside look-arounds. -/
def anyFillsGroups : List Expr → Bool
  | [] => false
  | expr :: rest => expr.fillsGroups || anyFillsGroups rest

end

/-- The groups that are named at the very start of an expression: of items and of branches only the first
one is looked at. -/
def leadingReferences : Expr → List Nat
  | .list (first :: _) | .choice (first :: _) => first.leadingReferences
  | .many body _ | .group _ _ body | .scoped body | .atomic body => body.leadingReferences
  | .conditional test yes no =>
    test.leadingReferences ++ yes.leadingReferences ++ no.leadingReferences
  | .lookAhead _ body | .lookBehind _ _ body => body.leadingReferences
  | .backref reference _ | .filled reference => reference.groups
  | _ => []

/-- The expression with its repetitions told how they are run. A group is watched if a back-reference
names it that is not at the very start of the repetition; `references` are all there are. -/
def withRounds (references : List Nat) (expr : Expr) : Expr :=
  expr.everywhere fun
    | .many body rounds =>
      let unrolled := rounds.mayUnroll body.codeSize
      let inside := body.leadingReferences
      let watched :=
        if rounds.mayStall && body.fillsGroups then
          body.ownGroups.filter fun index =>
            index < groupsToldApart && inside.count index < references.count index
        else []
      .many body { rounds with unrolled, watched }
    | other => other

/-- The groups that are called, with their bodies. -/
def calledGroups (expr : Expr) : List (Nat × GroupTraits × Expr) :=
  expr.collect fun
    | .group index traits body => if traits.called then [(index, traits, body)] else []
    | _ => []

end Expr

/-- Prepares a pattern that has been read. -/
def Reading.program (reading : Reading) : Except Error Program := do
  let reading := { reading with expr := reading.expr.joinTexts }
  let references := reading.expr.references
  if references.any (reading.groups < ·) then throw .unknownGroup
  let expr ← reading.resolveCalls
  let called := expr.calls.map Callee.index
  let bodies : Bodies := (0, expr) :: expr.groupBodies
  let (expr, _) ← (expr.prepare (references ++ called) false).run bodies
  let expr := expr.withRestored (references ++ expr.passedBy (called.contains 0))
  let expr := expr.withRounds expr.references
  let asksLevels := !(expr.collect fun
    | .backref reference _ | .filled reference => reference.level.toList
    | _ => []).isEmpty
  let whole := if called.contains 0 then [(0, { called := true : GroupTraits }, expr)] else []
  return {
    expr
    groups := reading.groups
    callees := whole ++ expr.calledGroups
    asksLevels
    needed := expr.needed.eraseDups }

def parse (pattern : String) : Except Error Program := do (← readPattern pattern).program

end ScopeLexer.Regex

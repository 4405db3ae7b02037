import ScopeLexer.Regex.Error
import ScopeLexer.Regex.Expr

/-!
How much text an expression takes: whether it may take nothing, and between which numbers of characters
it stays. Back-references and calls take what their group takes, so both are told the bodies of all
groups. A group that is met again inside itself, by way of a reference or a call, may take anything.
-/
namespace ScopeLexer.Regex

/-- The bodies of the groups of a pattern, by number. The body of group 0 is the whole pattern. -/
abbrev Bodies := List (Nat × Expr)

/-- How many characters an expression takes. -/
structure Width where
  least : Nat
  most : Option Nat
  /-- Whether the least number is known to be reached, whatever else has to hold. -/
  sure : Bool
  deriving Repr, DecidableEq, Inhabited

/-- A width from which on all widths count as unlimited. -/
def endlessWidth : Nat := 0xffffffff

namespace Width

def exactly (count : Nat) : Width := ⟨count, some count, true⟩

/-- No characters, under a condition. -/
def nothing : Width := ⟨0, some 0, false⟩

def anything : Width := ⟨0, none, false⟩

/-- The width of one expression after another. -/
def add (first second : Width) : Width :=
  let most := match first.most, second.most with
    | some first, some second => some (first + second)
    | _, _ => none
  ⟨first.least + second.least, most, first.sure && second.sure⟩

/-- The width of one expression or another. -/
def either (first second : Width) : Width :=
  let sure :=
    if second.least < first.least then second.sure
    else if first.least = second.least then first.sure || second.sure
    else first.sure
  let most := match first.most, second.most with
    | some first, some second => some (max first second)
    | _, _ => none
  ⟨min first.least second.least, most, sure⟩

def repeated (width : Width) (rounds : Rounds) : Width :=
  let most := match width.most, rounds.most with
    | some width, some most => if width * most < endlessWidth then some (width * most) else none
    | _, _ => none
  { width with least := width.least * rounds.least, most }

/-- Whether there is only one number of characters. -/
def isFixed (width : Width) : Bool := width.most = some width.least

end Width

namespace Expr

mutual

/-- Whether an expression may take nothing. `emptyGroup` says so of the group with a number, given the
groups that are being looked into. -/
def mayBeEmptyWith (emptyGroup : List Nat → Nat → Bool) (within : List Nat) : Expr → Bool
  | .text chars _ => chars.isEmpty
  | .any _ | .word _ _ | .oneOf _ _ => false
  | .list items => allMayBeEmpty emptyGroup within items
  | .choice branches => anyMayBeEmpty emptyGroup within branches
  | .many body rounds => rounds.least = 0 || body.mayBeEmptyWith emptyGroup within
  | .group index _ body =>
    within.contains index || body.mayBeEmptyWith emptyGroup (index :: within)
  | .scoped body | .atomic body => body.mayBeEmptyWith emptyGroup within
  | .conditional test yes no =>
    (test.mayBeEmptyWith emptyGroup within && yes.mayBeEmptyWith emptyGroup within) ||
      no.mayBeEmptyWith emptyGroup within
  | .backref reference _ => reference.fromInside || reference.groups.any (emptyGroup within)
  | .call callee => emptyGroup within callee.index
  | .lookAhead _ _ | .lookBehind _ _ _ | .filled _ | .anchor _ => true
  | .verb kind => kind ≠ .impossible

/-- Whether all of some expressions may take nothing. -/
def allMayBeEmpty (emptyGroup : List Nat → Nat → Bool) (within : List Nat) : List Expr → Bool
  | [] => true
  | expr :: rest =>
    expr.mayBeEmptyWith emptyGroup within && allMayBeEmpty emptyGroup within rest

/-- Whether one of some expressions may take nothing. -/
def anyMayBeEmpty (emptyGroup : List Nat → Nat → Bool) (within : List Nat) : List Expr → Bool
  | [] => false
  | expr :: rest =>
    expr.mayBeEmptyWith emptyGroup within || anyMayBeEmpty emptyGroup within rest

end

mutual

/-- The width of an expression. `groupWidth` gives that of the group with a number, given the groups that
are being looked into. A text where case does not count has to be spelled out before. -/
def widthWith (groupWidth : List Nat → Nat → Except Error Width) (within : List Nat) :
    Expr → Except Error Width
  | .text chars ignoreCase =>
    if ignoreCase then .error .badLookBehind else .ok (.exactly chars.length)
  | .any _ | .word _ _ | .oneOf _ _ => .ok (.exactly 1)
  | .list items => listWidth groupWidth within items
  | .choice branches => choiceWidth groupWidth within branches
  | .many body rounds => do
    if rounds.most = some 0 then return .exactly 0
    return (← body.widthWith groupWidth within).repeated rounds
  | .group index _ body => do
    if within.contains index then return .anything
    return { ← body.widthWith groupWidth (index :: within) with sure := false }
  | .scoped body | .atomic body => body.widthWith groupWidth within
  | .conditional test yes no => do
    let test ← test.widthWith groupWidth within
    let yes ← yes.widthWith groupWidth within
    return (test.add yes).either (← no.widthWith groupWidth within)
  | .backref reference _ =>
    if reference.fromInside then
      .ok (if reference.level.isSome then .anything else .nothing)
    else do
      let widths ← reference.groups.mapM (groupWidth within)
      return match widths with
        | [] => .nothing
        | first :: rest => rest.foldl .either first
  | .call callee => if callee.recursive then .ok .anything else groupWidth within callee.index
  | .lookAhead _ _ | .lookBehind _ _ _ | .filled _ | .anchor _ => .ok .nothing
  | .verb _ => .ok (.exactly 0)

/-- The width of expressions one after the other. -/
def listWidth (groupWidth : List Nat → Nat → Except Error Width) (within : List Nat) :
    List Expr → Except Error Width
  | [] => .ok (.exactly 0)
  | expr :: rest => do
    let first ← expr.widthWith groupWidth within
    return first.add (← listWidth groupWidth within rest)

/-- The width of one of some expressions. -/
def choiceWidth (groupWidth : List Nat → Nat → Except Error Width) (within : List Nat) :
    List Expr → Except Error Width
  | [] => .ok (.exactly 0)
  | [expr] => expr.widthWith groupWidth within
  | expr :: rest => do
    let first ← expr.widthWith groupWidth within
    return first.either (← choiceWidth groupWidth within rest)

end

end Expr

namespace Bodies

/-- Whether a group may take nothing, the number bounding the groups that are looked into. -/
def emptyGroup (bodies : Bodies) : Nat → List Nat → Nat → Bool
  | 0, _, _ => true
  | depth + 1, within, index =>
    within.contains index ||
      match bodies.lookup index with
      | some body => body.mayBeEmptyWith (emptyGroup bodies depth) (index :: within)
      | none => true

/-- The width of a group, the number bounding the groups that are looked into. -/
def groupWidth (bodies : Bodies) : Nat → List Nat → Nat → Except Error Width
  | 0, _, _ => .ok .anything
  | depth + 1, within, index =>
    if within.contains index then .ok .anything
    else
      match bodies.lookup index with
      | some body => do
        let width ← body.widthWith (groupWidth bodies depth) (index :: within)
        return { width with sure := false }
      | none => .ok .anything

/-- Whether an expression may take nothing. -/
def mayBeEmpty (bodies : Bodies) (expr : Expr) : Bool :=
  expr.mayBeEmptyWith (bodies.emptyGroup (bodies.length + 1)) []

def width (bodies : Bodies) (expr : Expr) : Except Error Width :=
  expr.widthWith (bodies.groupWidth (bodies.length + 1)) []

end Bodies
end ScopeLexer.Regex

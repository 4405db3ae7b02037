import ScopeLexer.Regex.Width
import ScopeLexer.Regex.Parser

/-!
Calls of groups. Once all of a pattern has been read, each call is told which group it calls, and a
group that calls itself is told so. A group must not call itself whichever way it is matched, nor before
it has taken anything: matching it would not come to an end.
-/
namespace ScopeLexer.Regex

/-- How a group is met again inside itself. -/
structure Recursion where
  /-- There is a way to meet it. -/
  possible : Bool := false
  /-- There is no way around it. -/
  certain : Bool := false
  /-- It is met before anything has been taken. -/
  endless : Bool := false
  deriving Repr, DecidableEq, Inhabited

namespace Recursion

/-- How a group is met again in one expression after another. -/
def andThen (first second : Recursion) : Recursion :=
  ⟨first.possible || second.possible, first.certain || second.certain,
    first.endless || second.endless⟩

/-- How a group is met again in one expression or another. -/
def orElse (first second : Recursion) : Recursion :=
  ⟨first.possible || second.possible, first.certain && second.certain,
    first.endless || second.endless⟩

end Recursion

/-- What has to be known to look for a group inside itself. -/
structure RecursionSearch where
  /-- The group that is looked for. -/
  target : Nat
  /-- Whether an expression may take nothing. -/
  mayBeEmpty : Expr → Bool
  /-- Looks into a group that is called, given whether nothing has been taken yet and the groups that
  are being looked into. -/
  enter : Bool → List Nat → Nat → Recursion

namespace Expr

mutual

/-- How a group is met again in an expression. `head` says that nothing has been taken yet. -/
def recursion (search : RecursionSearch) (head : Bool) (within : List Nat) : Expr → Recursion
  | .list items => listRecursion search head within items
  | .choice branches => choiceRecursion search head within branches
  | .many body rounds =>
    if rounds.most = some 0 then {}
    else
      let inner := body.recursion search head within
      { inner with certain := inner.certain && rounds.least ≠ 0 }
  | .group index _ body =>
    if within.contains index then {}
    else if index = search.target then ⟨true, true, head⟩
    else body.recursion search head (index :: within)
  | .scoped body | .atomic body | .lookAhead _ body | .lookBehind _ _ body =>
    body.recursion search head within
  | .conditional test yes no =>
    let yesHead := head && search.mayBeEmpty test
    ((test.recursion search head within).andThen (yes.recursion search yesHead within)).orElse
      (no.recursion search head within)
  | .call callee => search.enter head within callee.index
  | _ => {}

/-- How a group is met again in expressions one after the other. -/
def listRecursion (search : RecursionSearch) (head : Bool) (within : List Nat) :
    List Expr → Recursion
  | [] => {}
  | expr :: rest =>
    (expr.recursion search head within).andThen
      (listRecursion search (head && search.mayBeEmpty expr) within rest)

/-- How a group is met again in one of some expressions. -/
def choiceRecursion (search : RecursionSearch) (head : Bool) (within : List Nat) :
    List Expr → Recursion
  | [] => {}
  | [expr] => expr.recursion search head within
  | expr :: rest =>
    (expr.recursion search head within).orElse (choiceRecursion search head within rest)

end

end Expr

namespace Bodies

/-- How the group `target` is met again in a group that is called, the number bounding the calls. -/
def enterCallee (bodies : Bodies) (target : Nat) : Nat → Bool → List Nat → Nat → Recursion
  | 0, _, _, _ => {}
  | depth + 1, head, within, index =>
    if within.contains index then {}
    else if index = target then ⟨true, true, head⟩
    else
      match bodies.lookup index with
      | some body =>
        body.recursion ⟨target, bodies.mayBeEmpty, enterCallee bodies target depth⟩ head
          (index :: within)
      | none => {}

/-- How a group is met again inside itself. -/
def recursionOf (bodies : Bodies) (target : Nat) : Recursion :=
  match bodies.lookup target with
  | some body =>
    body.recursion ⟨target, bodies.mayBeEmpty, bodies.enterCallee target (bodies.length + 1)⟩ true []
  | none => {}

/-- The groups that stand in a group or are called there. -/
def enteredIn (bodies : Bodies) (index : Nat) : List Nat :=
  match bodies.lookup index with
  | some body => body.calls.map Callee.index ++ body.groupBodies.map Prod.fst
  | none => []

/-- The groups `entered` and all that are entered in them, the number bounding the steps. -/
def closure (bodies : Bodies) : Nat → List Nat → List Nat
  | 0, entered => entered
  | steps + 1, entered =>
    closure bodies steps (entered ++ entered.flatMap bodies.enteredIn).eraseDups

/-- The groups that are run while a group is run. -/
def runWithin (bodies : Bodies) (index : Nat) : List Nat :=
  bodies.closure bodies.length (bodies.enteredIn index).eraseDups

end Bodies

namespace Reading

def calledIndex (reading : Reading) (callee : Callee) : Except Error Nat :=
  if callee.byName then
    match (reading.names.filter (·.1 = callee.written)).map Prod.snd with
    | [] => .error (.unknownName callee.written)
    | [index] => .ok index
    | _ => .error (.sharedName callee.written)
  else if reading.groups < callee.index then .error (.unknownCallee callee.written)
  else .ok callee.index

end Reading

namespace Expr

/-- The expression with the groups of its calls, as `indexOf` gives them. -/
def withCallees (indexOf : Callee → Nat) (expr : Expr) : Expr :=
  expr.everywhere fun
    | .call callee => .call { callee with index := indexOf callee }
    | other => other

mutual

/-- The expression with its groups and calls told whether they recur. `runWithin` gives the groups that
are run while a group is run; `within` are the groups around the expression. -/
def withRecursion (called : List Nat) (runWithin : Nat → List Nat) (within : List Nat) : Expr → Expr
  | .list items => .list (allWithRecursion called runWithin within items)
  | .choice branches => .choice (allWithRecursion called runWithin within branches)
  | .many body rounds => .many (body.withRecursion called runWithin within) rounds
  | .group index traits body =>
    .group index
      { traits with
        called := called.contains index
        recursive := (runWithin index).contains index }
      (body.withRecursion called runWithin (index :: within))
  | .scoped body => .scoped (body.withRecursion called runWithin within)
  | .atomic body => .atomic (body.withRecursion called runWithin within)
  | .conditional test yes no =>
    .conditional (test.withRecursion called runWithin within)
      (yes.withRecursion called runWithin within) (no.withRecursion called runWithin within)
  | .lookAhead negated body => .lookAhead negated (body.withRecursion called runWithin within)
  | .lookBehind negated reach body =>
    .lookBehind negated reach (body.withRecursion called runWithin within)
  | .call callee =>
    let run := callee.index :: runWithin callee.index
    .call { callee with recursive := within.any run.contains }
  | expr => expr

/-- Some expressions with their groups and calls told whether they recur. -/
def allWithRecursion (called : List Nat) (runWithin : Nat → List Nat) (within : List Nat) :
    List Expr → List Expr
  | [] => []
  | expr :: rest =>
    expr.withRecursion called runWithin within :: allWithRecursion called runWithin within rest

end

end Expr

/-- The expression of a pattern with its calls resolved. -/
def Reading.resolveCalls (reading : Reading) : Except Error Expr := do
  let calls := reading.expr.calls
  if calls.isEmpty then return reading.expr
  let _ ← calls.mapM reading.calledIndex
  let expr := reading.expr.withCallees fun callee =>
    (reading.calledIndex callee).toOption.getD callee.index
  let bodies : Bodies := (0, expr) :: expr.groupBodies
  let called := (expr.calls.map Callee.index).eraseDups
  let recursions := called.map bodies.recursionOf
  if recursions.any fun recursion => recursion.certain || recursion.endless then
    throw .endlessRecursion
  return expr.withRecursion called bodies.runWithin [0]

end ScopeLexer.Regex

import ScopeLexer.Regex.Width

/-!
Look-behinds. What one holds is checked, and shortened at its start where that finds the same; then
it is settled how far it reaches back. One whose alternatives have different widths is divided into one
for each of them, so that they are tried in the order written.
-/
namespace ScopeLexer.Regex

/-- The largest number of characters that a look-behind may reach back. -/
def farthestBehind : Nat := 65535

/-- Whether a condition can be checked in a look-behind: all but those on the end of the text. -/
def Anchor.allowedBehind : Anchor → Bool
  | .textEnd | .lastLineEnd => false
  | _ => true

namespace Expr

mutual

/-- Whether an expression may stand in a look-behind. It must not look ahead; one that is negated has
no groups, and one that is not has no negated look-behind in it. `allowedGroup` says whether a group that
is called may stand there. -/
def allowedBehind (negated : Bool) (allowedGroup : Nat → Bool) : Expr → Bool
  | .list items | .choice items => allAllowedBehind negated allowedGroup items
  | .many body _ | .scoped body | .atomic body => body.allowedBehind negated allowedGroup
  | .group _ _ body => !negated && body.allowedBehind negated allowedGroup
  | .conditional test yes no =>
    test.allowedBehind negated allowedGroup && yes.allowedBehind negated allowedGroup &&
      no.allowedBehind negated allowedGroup
  | .lookAhead _ _ => false
  | .lookBehind innerNegated _ body =>
    (negated || !innerNegated) && body.allowedBehind negated allowedGroup
  | .anchor condition => condition.allowedBehind
  | .call callee => callee.recursive || (!negated && allowedGroup callee.index)
  | .text _ _ | .any _ | .word _ _ | .oneOf _ _ | .backref _ _ | .filled _ | .verb _ => true

/-- Whether some expressions may stand in a look-behind. -/
def allAllowedBehind (negated : Bool) (allowedGroup : Nat → Bool) : List Expr → Bool
  | [] => true
  | expr :: rest =>
    expr.allowedBehind negated allowedGroup && allAllowedBehind negated allowedGroup rest

end

/-- Whether an expression is a text, a class or a back-reference. -/
def isUnit : Expr → Bool
  | .text _ _ | .any _ | .word _ _ | .oneOf _ _ | .backref _ _ | .filled _ => true
  | _ => false

/-- The expression without the rounds that need not be there, and whether none are left. -/
def trimmed : Expr → Expr × Bool
  | .many body rounds =>
    if body.isUnit then
      (.many body { rounds with most := some rounds.least }, rounds.least = 0)
    else (.many body rounds, false)
  | expr => (expr, false)

/-- The expressions without the rounds at their start that need not be there, and whether nothing is
left. -/
def trimmedList : List Expr → List Expr × Bool
  | [] => ([], true)
  | expr :: rest =>
    match expr.trimmed with
    | (short, true) =>
      let (shortRest, nothingLeft) := trimmedList rest
      (short :: shortRest, nothingLeft)
    | (short, false) => (short :: rest, false)

/-- A branch of a look-behind without the rounds at its start that need not be there. A look-behind may
start anywhere, so it finds the same without them. Of several items something has to be left. -/
def trimBranch : Expr → Except Error Expr
  | .list items =>
    match trimmedList items with
    | (_, true) => .error .emptiedLookBehind
    | (items, false) => .ok (.list items)
  | expr => .ok expr.trimmed.1

/-- The body of a look-behind without the rounds at its start that need not be there. -/
def trimStart : Expr → Except Error Expr
  | .choice branches => do return .choice (← branches.mapM trimBranch)
  | expr => expr.trimBranch

end Expr

namespace Bodies

/-- Whether a group that is called may stand in a look-behind that is not negated, the number bounding
the calls. -/
def allowedGroup (bodies : Bodies) : Nat → Nat → Bool
  | 0, _ => true
  | depth + 1, index =>
    ((bodies.lookup index).map fun body =>
      body.allowedBehind false (allowedGroup bodies depth)).getD true

/-- Whether an expression may stand in a look-behind. -/
def allowsBehind (bodies : Bodies) (negated : Bool) (body : Expr) : Bool :=
  body.allowedBehind negated (bodies.allowedGroup (bodies.length + 1))

/-- A look-behind with the body it was prepared with. One that finds nothing everywhere is dropped,
unless a group in it is used elsewhere, which `isUsed` says. The number bounds the choices in choices
that are divided. -/
def settleBehind (bodies : Bodies) (isUsed : Expr → Bool) (negated : Bool) :
    Nat → Expr → Except Error Expr
  | divisions, body => do
    let body ← body.trimStart
    let width ← bodies.width body
    if farthestBehind < width.least || width.most.any (farthestBehind < ·) then
      throw .badLookBehind
    if width.least = 0 && width.sure && !isUsed body then
      return if negated then .verb .impossible else .empty
    if width.isFixed then
      return .lookBehind negated ⟨width.least, width.most⟩ body
    match divisions, body with
    | divisions + 1, .choice (first :: others) =>
      let widths ← others.mapM bodies.width
      if widths.all Width.isFixed then
        let parts ← (first :: others).mapM (settleBehind bodies isUsed negated divisions)
        return if negated then .list parts else .choice parts
      else return .lookBehind negated ⟨width.least, width.most⟩ body
    | _, _ => return .lookBehind negated ⟨width.least, width.most⟩ body
termination_by divisions => divisions

end Bodies
end ScopeLexer.Regex

import ScopeLexer.Regex.Error
import ScopeLexer.Regex.Expr

/-!
Repeating an expression. A condition cannot be repeated, a single round is the expression itself, and a
repetition of a repetition is folded into one where that takes the same text.
-/
namespace ScopeLexer.Regex

/-- The kinds of repetition that fold into one another. -/
inductive Rounds.Kind where
  | optional
  | star
  | plus
  deriving Repr, DecidableEq, Inhabited

namespace Rounds

def optional (reluctant : Bool) : Rounds := { least := 0, most := some 1, reluctant }

/-- Any number of rounds. -/
def star (reluctant : Bool) : Rounds := { least := 0, most := none, reluctant }

def plus (reluctant : Bool) : Rounds := { least := 1, most := none, reluctant }

/-- The kind of a repetition, if it is one of those that fold. -/
def kind? (rounds : Rounds) : Option Kind :=
  match rounds.least, rounds.most with
  | 0, some 1 => some .optional
  | 0, none => some .star
  | 1, none => some .plus
  | _, _ => none

/-- Whether there is only one number of rounds. -/
def isExact (rounds : Rounds) : Bool := rounds.most = some rounds.least

end Rounds

namespace Expr

mutual

/-- Whether an expression may be repeated: it is no condition, and no choice with a bare condition
among its branches. -/
def repeatable : Expr → Bool
  | .anchor _ | .lookAhead _ _ | .lookBehind _ _ _ | .verb _ => false
  | .choice branches => allRepeatable branches
  | _ => true

/-- Whether each of some expressions may be repeated. -/
def allRepeatable : List Expr → Bool
  | [] => true
  | expr :: rest => expr.repeatable && allRepeatable rest

end

/-- What becomes of a repetition that is repeated, by their kinds and whether they are reluctant. The
repetition inside is named first. -/
def foldKinds (body : Expr) (inner : Rounds) (outer : Rounds) : Rounds.Kind → Rounds.Kind → Expr :=
  let keepBoth := Expr.many (.many body inner) outer
  let keepInner := Expr.many body inner
  let optionalPlus := Expr.many (.many body (.plus false)) (.optional true)
  fun innerKind outerKind =>
    match innerKind, inner.reluctant, outerKind, outer.reluctant with
    | .optional, false, .optional, false => keepInner
    | .optional, false, _, false => .many body (.star false)
    | .optional, false, .optional, true => .many body (.optional true)
    | .optional, false, .star, true => .many body (.star true)
    | .optional, false, .plus, true => keepBoth
    | .star, false, .optional, true => optionalPlus
    | .star, false, .star, true => optionalPlus
    | .star, false, _, _ => keepInner
    | .plus, false, .plus, _ => keepInner
    | .plus, false, _, false => .many body (.star false)
    | .plus, false, .optional, true => keepBoth
    | .plus, false, .star, true => optionalPlus
    | .optional, true, .optional, _ => keepInner
    | .optional, true, _, _ => .many body (.star true)
    | .star, true, _, _ => keepInner
    | .plus, true, _, false => keepBoth
    | .plus, true, .plus, true => keepInner
    | .plus, true, _, true => .many body (.star true)

/-- A repetition of a repetition. -/
def repeatedAgain (body : Expr) (inner outer : Rounds) : Expr :=
  match inner.kind?, outer.kind? with
  | some innerKind, some outerKind => foldKinds body inner outer innerKind outerKind
  | some innerKind, none =>
    let bounded := !inner.reluctant && innerKind ≠ .optional && !outer.reluctant &&
      outer.most.any (1 < ·)
    .many (.many body inner)
      (if bounded then { outer with most := some (max 1 outer.least) } else outer)
  | none, _ =>
    if inner.isExact && outer.isExact then
      let least := inner.least * outer.least
      .many body { outer with least, most := some least }
    else .many (.many body inner) outer

/-- An expression repeated, which may be repeated. A single round is the expression itself. The product
of two exact numbers of rounds has to fit 31 bits. -/
def repeated (expr : Expr) (rounds : Rounds) : Except Error Expr :=
  if rounds.least = 1 && rounds.most = some 1 then .ok expr
  else
    match expr with
    | .many body inner =>
      if inner.isExact && rounds.isExact && 0x7fffffff < inner.least * rounds.least then
        .error .repeatTooLarge
      else .ok (repeatedAgain body inner rounds)
    | _ => .ok (.many expr rounds)

end Expr
end ScopeLexer.Regex

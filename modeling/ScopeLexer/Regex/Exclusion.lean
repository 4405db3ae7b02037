import ScopeLexer.Regex.Repetition

/-!
Repetitions that cannot give anything back. Where what follows a repetition starts with a character that
the repetition does not take, giving back a round leads nowhere, so the repetition is made atomic.
-/
namespace ScopeLexer.Regex

namespace CharSet

/-- Whether a class has only members among the first 128 characters. -/
def isNarrow (set : CharSet) (negated : Bool) : Bool := !set.reachesBeyond && !negated

/-- Whether a class and the word characters, or else all other characters, have none in common. -/
def excludesWord (set : CharSet) (setNegated wordNegated asciiOnly : Bool) : Bool :=
  let ascii := (List.range 0x80).map Char.ofNat
  if !wordNegated then
    set.isNarrow setNegated && ascii.all fun c => !(set.contains c && isWordChar false c)
  else
    !set.reachesBeyond && (asciiOnly || !setNegated) &&
      ascii.all fun c => isWordChar false c || set.contains c = setNegated

end CharSet

/-- Whether neither of two texts starts with the other. -/
def partWays : List Char → List Char → Bool
  | c :: first, d :: second => c ≠ d || partWays first second
  | _, _ => false

namespace Expr

/-- The text or class that every match of an expression is taken to start with. -/
def head? : Expr → Option Expr
  | .text chars ignoreCase => if chars.isEmpty then none else some (.text chars ignoreCase)
  | .word negated asciiOnly => some (.word negated asciiOnly)
  | .oneOf set negated => some (.oneOf set negated)
  | .list (first :: _) => first.head?
  | .many body rounds => if rounds.least = 0 then none else body.head?
  | .group _ _ body | .scoped body | .atomic body | .lookAhead false body => body.head?
  | .conditional test _ _ => test.head?
  | _ => none

/-- Whether two texts or classes have no start in common. -/
def excludes : Expr → Expr → Bool
  | .word negated asciiOnly, .word otherNegated otherAsciiOnly =>
    negated ≠ otherNegated && asciiOnly = otherAsciiOnly
  | .word wordNegated asciiOnly, .oneOf set negated
  | .oneOf set negated, .word wordNegated asciiOnly =>
    set.excludesWord negated wordNegated asciiOnly
  | .word negated asciiOnly, .text (c :: _) _
  | .text (c :: _) _, .word negated asciiOnly => isWordChar asciiOnly c = negated
  | .oneOf set negated, .oneOf otherSet otherNegated =>
    !set.meetsInAscii negated otherSet otherNegated &&
      (set.isNarrow negated || otherSet.isNarrow otherNegated)
  | .oneOf set negated, .text (c :: _) _
  | .text (c :: _) _, .oneOf set negated => set.contains c = negated
  | .text first _, .text second _ => partWays first second
  | _, _ => false

/-- Whether the rounds are greedy and unlimited, and at most one of them must be run. -/
def isOpenEnded (rounds : Rounds) : Bool :=
  rounds.most = none && rounds.least ≤ 1 && !rounds.reluctant

/-- The expression where another one is `next`, made atomic if it is a repetition that gives nothing
back. -/
def before : Expr → Expr → Expr
  | .many body rounds, next =>
    let exclusive := match body.head?, next.head? with
      | some first, some second => first.excludes second
      | _, _ => false
    if isOpenEnded rounds && body.isPlain && exclusive then .atomic (.many body rounds)
    else .many body rounds
  | .group index traits body, next => .group index traits (body.before next)
  | expr, _ => expr

/-- Expressions one after the other, each made atomic where it gives nothing back to the next. -/
def chained : List Expr → List Expr
  | first :: second :: rest => first.before second :: chained (second :: rest)
  | items => items

end Expr
end ScopeLexer.Regex

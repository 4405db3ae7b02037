import ScopeLexer.Regex.Exclusion

/-!
The size of an expression: the number of instructions that it takes when it is laid out for a machine
that backtracks. Characters of one width that follow each other are a single instruction. The size
decides whether a repetition is unrolled, which shows when its rounds may take nothing.
-/
namespace ScopeLexer.Regex

/-- The largest size that an unrolled repetition may have. -/
def unrollLimit : Nat := 10

/-- The number of runs of characters of one width in a text that follows a character of the width
`last`, if it follows one. -/
def widthRuns (last : Option Nat) : List Char → Nat
  | [] => 0
  | c :: rest =>
    (if last = some c.utf8Size then 0 else 1) + widthRuns (some c.utf8Size) rest

namespace Rounds

/-- Whether a repetition of a body of the given size is unrolled. -/
def mayUnroll (rounds : Rounds) (size : Nat) : Bool :=
  match rounds.most with
  | none => rounds.least = 0 || size * rounds.least ≤ unrollLimit
  | some most =>
    if rounds.reluctant then rounds.least = 0 && most = 1
    else most ≤ 1 || (size + 1) * most ≤ unrollLimit

/-- The size of a repetition, given the size of its body. -/
def codeSize (rounds : Rounds) (size : Nat) : Nat :=
  let watchedSize := if rounds.mayStall then size + 2 else size
  if size = 0 then 0
  else
    match rounds.most with
    | none =>
      if rounds.least = 1 && unrollLimit < size then watchedSize + 3
      else if rounds.mayUnroll size then size * rounds.least + watchedSize + 2
      else watchedSize + 2
    | some most =>
      if most = 0 then 0
      else if !rounds.mayUnroll size then watchedSize + 2
      else if rounds.reluctant then size + 2
      else size * rounds.least + (size + 1) * (most - rounds.least)

end Rounds

namespace Expr

/-- Whether a repetition takes any characters without limit, which is one instruction besides the rounds
that it must have. -/
def isSweep : Expr → Rounds → Bool
  | .any _, rounds =>
    rounds.most = none && !rounds.reluctant && rounds.least ≤ unrollLimit
  | _, _ => false

/-- Whether an expression has a group that is called. -/
def holdsCallee (expr : Expr) : Bool :=
  !(expr.collect fun
    | .group index traits _ => if traits.called then [index] else []
    | _ => []).isEmpty

/-- The size of a repetition, given its body with the size of that. -/
def repeatedSize (body : Expr) (size : Nat) (rounds : Rounds) : Nat :=
  if body.isSweep rounds then rounds.least + 1
  else if rounds.most = some 0 && size ≠ 0 && body.holdsCallee then size + 1
  else rounds.codeSize size

mutual

/-- The size of an expression. A repetition of plain items that is left at once needs no marks. -/
def codeSize : Expr → Nat
  | .text chars _ => widthRuns none chars
  | .list items => listSize items
  | .choice branches => listSize branches + 2 * (branches.length - 1)
  | .many body rounds => repeatedSize body body.codeSize rounds
  | .group _ traits body => body.codeSize + (if traits.called then 5 else 2)
  | .scoped body => body.codeSize
  | .atomic (.many body rounds) =>
    let size := body.codeSize
    if isOpenEnded rounds && body.isPlain then rounds.least * size + size + 3
    else repeatedSize body size rounds + 2
  | .atomic body => body.codeSize + 2
  | .conditional test yes no => test.codeSize + yes.codeSize + no.codeSize + 5
  | .lookAhead negated body => body.codeSize + (if negated then 5 else 2)
  | .lookBehind negated reach body =>
    let marks :=
      if reach.most = some reach.least then (if negated then 6 else 3)
      else (if negated then 14 else 12)
    body.codeSize + marks
  | _ => 1

/-- The size of some expressions together. -/
def listSize : List Expr → Nat
  | [] => 0
  | expr :: rest => expr.codeSize + listSize rest

end

end Expr
end ScopeLexer.Regex

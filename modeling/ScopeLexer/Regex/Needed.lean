import ScopeLexer.Regex.Expr

/-!
Characters that every match of an expression takes. Where one of them is not to be found there is no
match, and nothing has to be tried.
-/
namespace ScopeLexer.Regex.Expr

mutual

/-- Characters that every match of an expression takes. Those that are only looked at do not count, and
of a repetition that must be run the first round is. -/
def needed : Expr → List Char
  | .text chars ignoreCase => if ignoreCase then [] else chars
  | .list items => neededByAll items
  | .choice branches => neededByEach branches
  | .many body rounds => if rounds.least = 0 then [] else body.needed
  | .group _ _ body | .scoped body | .atomic body => body.needed
  | _ => []

/-- Characters that are taken by expressions one after the other. -/
def neededByAll : List Expr → List Char
  | [] => []
  | expr :: rest => expr.needed ++ neededByAll rest

/-- Characters that are taken by each of some expressions. -/
def neededByEach : List Expr → List Char
  | [] => []
  | [expr] => expr.needed
  | expr :: rest => expr.needed.filter (neededByEach rest).contains

end

end ScopeLexer.Regex.Expr

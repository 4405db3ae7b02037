import ScopeLexer.Scope
import ScopeLexer.Regex.CharSet

/-!
The tokens of a selector: priority marks, names, and the signs `,`, `|`, `-`, `(` and `)`. Anything
else divides tokens and does not count.
-/
namespace ScopeLexer.Selector

inductive Token where
  | left
  | right
  | name (text : String)
  | comma
  | bar
  | minus
  | openParen
  | closeParen
  deriving Repr, DecidableEq, Inhabited

/-- Whether a character can start a name. -/
def startsName (c : Char) : Bool := Regex.inWordClass c || c = '.' || c = ':'

/-- Whether a character can go on with a name. -/
def continuesName (c : Char) : Bool := startsName c || c = '*' || c = '-'

/-- The token that a sign stands for. -/
def signToken? : Char → Option Token
  | ',' => some .comma
  | '|' => some .bar
  | '-' => some .minus
  | '(' => some .openParen
  | ')' => some .closeParen
  | _ => none

def tokens : List Char → List Token
  | [] => []
  | 'L' :: ':' :: rest => .left :: tokens rest
  | 'R' :: ':' :: rest => .right :: tokens rest
  | c :: rest =>
    if startsName c then
      let more := rest.takeWhile continuesName
      .name (String.ofList (c :: more)) :: tokens (rest.drop more.length)
    else
      match signToken? c with
      | some token => token :: tokens rest
      | none => tokens rest
termination_by chars => chars.length
decreasing_by all_goals simp only [List.length_drop, List.length_cons]; omega

/-- Whether a name can stand in a path: something in it is a letter, a number, an underscore, a dot or
a colon. -/
def isIdentifier (name : String) : Bool :=
  name.toList.any fun c =>
    Text.isLetter c || Text.isNumber c || c = '_' || c = '.' || c = ':'

/-- What stands before the first `.*`, if it occurs. -/
def beforeWildcard? : List Char → Option (List Char)
  | [] => none
  | '.' :: '*' :: _ => some []
  | c :: rest => (beforeWildcard? rest).map (c :: ·)

/-- The scope that a name stands for: `meta.tag.*.html` is the same as `meta.tag`. -/
def scopeOfName (name : String) : Scope :=
  match beforeWildcard? name.toList with
  | some start => Scope.ofText (String.ofList (Text.dropEndWhile (· = '.') start))
  | none => Scope.ofText name

end ScopeLexer.Selector

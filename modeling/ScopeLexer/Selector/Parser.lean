import ScopeLexer.Selector.Basic
import ScopeLexer.Selector.Token

/-!
Reading selectors. A selector is a conjunction of operands: paths of names, negated operands, and
alternatives in parentheses. Reading stops at the first token that has no place; selectors follow one
another after commas. The readers give the tokens they leave, and their first argument bounds the
steps.
-/
namespace ScopeLexer.Selector

/-- The operand that a minus sign with nothing after it negates. It holds nowhere, and so does its
double negation. -/
def missingOperand : Matcher := .not (.all [])

/-- Whether a token is a name that can stand in a path. -/
def isPathName : Token → Bool
  | .name text => isIdentifier text
  | _ => false

/-- The names at the start of some tokens. -/
def leadingNames : List Token → List Scope
  | .name text :: rest => if isIdentifier text then scopeOfName text :: leadingNames rest else []
  | _ => []

/-- The tokens without the names at their start. -/
def afterNames (tokens : List Token) : List Token := tokens.dropWhile isPathName

/-- The condition of some operands that must all hold. -/
def conjunctionOf : List Matcher → Matcher
  | [one] => one
  | operands => .all operands

/-- The condition of some alternatives. -/
def alternativeOf : List Matcher → Matcher
  | [one] => one
  | alternatives => .some alternatives

/-- Whether a token divides alternatives. -/
def isDivider : Token → Bool
  | .bar => true
  | .comma => true
  | _ => false

/-- The tokens without a closing parenthesis at their start. -/
def afterClose : List Token → List Token
  | .closeParen :: rest => rest
  | tokens => tokens

mutual

/-- Reads an operand, if the tokens start with one. -/
def readOperand : Nat → List Token → Option Matcher × List Token
  | 0, tokens => (none, tokens)
  | steps + 1, .minus :: rest =>
    let (operand, rest) := readOperand steps rest
    (some (.not (operand.getD missingOperand)), rest)
  | steps + 1, .openParen :: rest =>
    let (alternatives, rest) := readAlternatives steps rest
    (some (alternativeOf alternatives), afterClose rest)
  | _ + 1, tokens =>
    if tokens.head?.any isPathName then (some (.path (leadingNames tokens)), afterNames tokens)
    else (none, tokens)

/-- Reads operands as long as there are some. -/
def readOperands : Nat → List Token → List Matcher × List Token
  | 0, tokens => ([], tokens)
  | steps + 1, tokens =>
    match readOperand steps tokens with
    | (none, rest) => ([], rest)
    | (some operand, rest) =>
      let (operands, rest) := readOperands steps rest
      (operand :: operands, rest)

/-- Reads alternatives, each a conjunction, divided by one or more dividers. -/
def readAlternatives : Nat → List Token → List Matcher × List Token
  | 0, tokens => ([], tokens)
  | steps + 1, tokens =>
    let (operands, rest) := readOperands steps tokens
    if rest.head?.any isDivider then
      let (alternatives, rest) := readAlternatives steps (rest.dropWhile isDivider)
      (conjunctionOf operands :: alternatives, rest)
    else ([conjunctionOf operands], rest)

end

/-- Enough steps for some tokens: a token is read in three steps at most. -/
def stepsFor (tokens : List Token) : Nat := 3 * tokens.length + 3

/-- The priority that the tokens start with, and the tokens after it. -/
def readPriority : List Token → Priority × List Token
  | .left :: rest => (.left, rest)
  | .right :: rest => (.right, rest)
  | tokens => (.default, tokens)

/-- Reads selectors up to the first token that has no place. The first argument bounds their
number. -/
def readSelectors : Nat → List Token → List Selector
  | 0, _ => []
  | _, [] => []
  | count + 1, tokens =>
    let (priority, rest) := readPriority tokens
    let (operands, rest) := readOperands (stepsFor rest) rest
    let selector : Selector := ⟨conjunctionOf operands, priority⟩
    match rest with
    | .comma :: rest => selector :: readSelectors count rest
    | _ => [selector]

def parse (text : String) : List Selector :=
  let tokens := tokens text.toList
  readSelectors (tokens.length + 1) tokens

end ScopeLexer.Selector

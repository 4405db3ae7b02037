import ScopeLexer.Regex.Error
import ScopeLexer.Regex.Expr

/-!
Callouts: places of a pattern where a match is to call out, either by a name, as in `(*FAIL)`, or with
contents in braces. Nobody listens to contents, so such a callout lets the match go on; of the named ones
a few end the match or one way of it.
-/
namespace ScopeLexer.Regex

/-- What an argument of a callout has to be. -/
inductive ArgumentKind where
  | number
  | numberOrTag
  | char
  | string
  deriving Repr, DecidableEq, Inhabited

/-- A callout with a name. -/
structure Callout where
  verb : Verb
  arguments : List ArgumentKind
  /-- How many of the arguments have to be there. -/
  needed : Nat
  deriving Repr, Inhabited

def callouts : List (String × Callout) := [
  ("FAIL", ⟨.fail, [], 0⟩),
  ("MISMATCH", ⟨.abandon, [], 0⟩),
  ("ERROR", ⟨.abandon, [.number], 0⟩),
  ("MAX", ⟨.pass, [.numberOrTag, .char], 1⟩),
  ("COUNT", ⟨.pass, [.char], 0⟩),
  ("TOTAL_COUNT", ⟨.pass, [.char], 0⟩),
  ("CMP", ⟨.pass, [.numberOrTag, .string, .numberOrTag], 3⟩)]

/-- Whether a text can be the name of a callout, or a tag. -/
def isCalloutName (name : List Char) : Bool :=
  !name.isEmpty && name.all (fun c => c.isAlphanum || c = '_') && !name.head?.any Char.isDigit

def isSignedNumber (text : List Char) : Bool :=
  let digits := match text with
    | '-' :: rest | '+' :: rest => rest
    | _ => text
  !digits.isEmpty && digits.all Char.isDigit

/-- The arguments in braces, given what follows the opening one, and how many characters they take with
the closing one. A backslash makes the character after it part of an argument. Empty ones do not count. -/
def calloutArguments (current : List Char) : List Char → Except Error (List (List Char) × Nat)
  | [] => .error .badCallout
  | '\x7d' :: _ => .ok (if current.isEmpty then [] else [current.reverse], 1)
  | ',' :: rest => do
    let (others, width) ← calloutArguments [] rest
    return (if current.isEmpty then others else current.reverse :: others, width + 1)
  | '\\' :: c :: rest => do
    let added := if c = '\\' || c = '\x7d' || c = ',' then [c] else [c, '\\']
    let (found, width) ← calloutArguments (added ++ current) rest
    return (found, width + 2)
  | c :: rest => do
    let (found, width) ← calloutArguments (c :: current) rest
    return (found, width + 1)

def ArgumentKind.fault? (kind : ArgumentKind) (text : List Char) : Option Error :=
  match kind with
  | .number => if isSignedNumber text then none else some .badCalloutArgument
  | .numberOrTag => if isSignedNumber text || isCalloutName text then none else some .badCalloutTag
  | .char => if text.length = 1 then none else some .badCalloutArgument
  | .string => none

/-- What is wrong with the arguments of a callout, the first thing that is. -/
def argumentFault? : List ArgumentKind → List (List Char) → Option Error
  | _, [] => none
  | [], _ :: _ => some .badCalloutArgument
  | kind :: kinds, text :: texts => (kind.fault? text).or (argumentFault? kinds texts)

/-- The number of characters of a tag with its brackets, given what follows the callout's name. -/
def tagWidth : List Char → Except Error Nat
  | '[' :: rest =>
    let tag := rest.takeWhile (· ≠ ']')
    if tag.length = rest.length then .error .endInGroup
    else if !isCalloutName tag then .error .badCalloutTag
    else if tag.length + 1 = rest.length then .error .endInGroup
    else .ok (tag.length + 2)
  | _ => .ok 0

/-- The arguments of a callout, if it has any, and how many characters they take with their braces. -/
def readArguments : List Char → Except Error (List (List Char) × Nat)
  | '\x7b' :: inner =>
    if inner.isEmpty then .error .badCallout
    else do
      let (found, width) ← calloutArguments [] inner
      return (found, width + 1)
  | _ => .ok ([], 0)

/-- What a callout does that has some arguments, given what follows them. -/
def Callout.verbWith (callout : Callout) (found : List (List Char)) (ended : List Char) :
    Except Error Verb :=
  match argumentFault? callout.arguments found with
  | some fault => .error fault
  | none =>
    if ended.isEmpty then .error .badCallout
    else if found.length < callout.needed then .error .badCalloutArgument
    else if ended.head? ≠ some ')' then .error .badCallout
    else .ok callout.verb

/-- Reads a callout by name up to its closing parenthesis, given what follows `(*`. -/
def readNamedCallout (chars : List Char) : Except Error (Verb × Nat) :=
  let name := chars.takeWhile fun c => c ≠ ')' && c ≠ '[' && c ≠ '\x7b'
  if name.length = chars.length then .error .endInGroup
  else if !isCalloutName name then .error .badCalloutName
  else do
    let tag ← tagWidth (chars.drop name.length)
    let after := chars.drop (name.length + tag)
    let (found, width) ← readArguments after
    match callouts.lookup (String.ofList name) with
    | none => .error .unknownCallout
    | some callout => do
      let verb ← callout.verbWith found (after.drop width)
      return (verb, name.length + tag + width + 1)

/-- How many characters contents have with their closing braces, of which there are `braces` more than
one. -/
def contentsWidth (braces : Nat) : List Char → Except Error Nat
  | [] => .error .badCallout
  | c :: rest =>
    if c = '\x7d' && (rest.take braces).length = braces && (rest.take braces).all (· = '\x7d') then
      .ok (braces + 1)
    else do return (← contentsWidth braces rest) + 1

/-- How many characters say whether a callout is called as the match goes on, as it goes back, or both. -/
def directionWidth (chars : List Char) : Nat :=
  if chars.head?.any fun c => c = 'X' || c = '<' || c = '>' then 1 else 0

/-- Reads what follows the contents of a callout, up to its closing parenthesis: a tag, and when it is
called. Gives how many characters that takes. -/
def contentsEnd (after : List Char) : Except Error Nat :=
  if after.isEmpty then .error .endInGroup
  else do
    let tag ← tagWidth after
    let marks := tag + directionWidth (after.drop tag)
    match after.drop marks with
    | [] => .error .endInGroup
    | c :: _ => if c = ')' then .ok (marks + 1) else .error .badCallout

/-- Reads a callout with contents up to its closing parenthesis, given what follows `(?` and one brace.
More braces at the start need as many at the end. -/
def readContentsCallout (chars : List Char) : Except Error (Verb × Nat) := do
  let braces := (chars.takeWhile (· = '\x7b')).length
  let contents ← contentsWidth braces (chars.drop braces)
  let ended ← contentsEnd (chars.drop (braces + contents))
  return (.pass, braces + contents + ended)

end ScopeLexer.Regex

import ScopeLexer.SourceLine
import ScopeLexer.Warning
import ScopeLexer.Regex.Spans
import ScopeLexer.Regex.CharSet
import ScopeLexer.Text.Blank

/-!
Back-references from one pattern to the match of another. The end of a region may refer to what its
start captured: `\1` there stands for the text of group 1, taken literally.
-/
namespace ScopeLexer.Pattern

open Regex

/-- Whether a character has to be escaped to stand for itself in a pattern. -/
def needsEscape (c : Char) : Bool :=
  ['-', '\\', '\x7b', '\x7d', '*', '+', '?', '|', '^', '$', '.', ',', '[', ']', '(', ')', '#'].contains c
    || Text.isBlank c

/-- A character written so that it stands for itself in a pattern. -/
def escapeChar (c : Char) : List Char := if needsEscape c then ['\\', c] else [c]

/-- A text written so that it stands for itself in a pattern. -/
def escape (text : String) : String := String.ofList (text.toList.flatMap escapeChar)

/-- The number that digits write, if they are ASCII digits and the number fits 64 bits. -/
def groupNumber? (digits : List Char) : Option Nat :=
  if digits.all Char.isDigit then
    let number := digits.foldl (fun value c => value * 10 + (c.toNat - '0'.toNat)) 0
    if number < 0x10000000000000000 then some number else none
  else none

def captured? (line : SourceLine) (spans : Spans) (group : Nat) : Option String := do
  let span ← spans.group group
  line.slice? span.start span.stop

/-- A part of a template: a character, or the digits of a back-reference. -/
inductive TemplatePart where
  | char (c : Char)
  | reference (digits : List Char)
  deriving Repr, DecidableEq, Inhabited

/-- The parts of a template. A backslash with digits after it is a back-reference. -/
def templateParts : List Char → List TemplatePart
  | [] => []
  | c :: rest =>
    let digits := rest.takeWhile isDigitChar
    if c = '\\' && !digits.isEmpty then
      .reference digits :: templateParts (rest.drop digits.length)
    else .char c :: templateParts rest
termination_by chars => chars.length
decreasing_by all_goals simp only [List.length_drop, List.length_cons]; omega

/-- What a part stands for, given the match that it refers to. A group that took no part stands for
nothing, and a number that cannot be read for the whole match. -/
def TemplatePart.resolve (line : SourceLine) (spans : Spans) : TemplatePart → String
  | .char c => String.singleton c
  | .reference digits => ((captured? line spans ((groupNumber? digits).getD 0)).map escape).getD ""

/-- Whether a part refers to a group that the match does not have. -/
def TemplatePart.outOfRange (spans : Spans) : TemplatePart → Bool
  | .char _ => false
  | .reference digits => (groupNumber? digits).any (spans.size ≤ ·)

/-- A template with its back-references resolved. It is left as it is, with a warning, if it refers to
a group that the match does not have. -/
def resolve (template : String) (line : SourceLine) (spans : Spans) : String × List Warning :=
  let parts := templateParts template.toList
  if parts.any (·.outOfRange spans) then (template, [.referenceOutOfRange template])
  else (String.join (parts.map (·.resolve line spans)), [])

end ScopeLexer.Pattern

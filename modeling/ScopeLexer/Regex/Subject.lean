import ScopeLexer.Regex.Expr
import ScopeLexer.SourceLine

/-!
What a match is tried on: the characters of a line, of which a look-behind takes only those before the
place that it looks back from.
-/
namespace ScopeLexer.Regex

/-- What a match is tried on. Positions count characters. -/
structure Subject where
  line : SourceLine
  searchStart : Nat
  /-- Where characters stop being there to be taken, as they do where a look-behind has to end. -/
  limit : Nat
  /-- Whether the match keeps a trail of the groups and calls that it passes. -/
  keepsTrail : Bool := false

/-- How a text compares with the one at a position. -/
inductive Comparison where
  /-- There are not enough characters left. -/
  | tooLong
  | differs
  /-- It is the same, up to the position. -/
  | same (stop : Nat)
  deriving Repr, DecidableEq, Inhabited

namespace Subject

def size (subject : Subject) : Nat := subject.line.charCount

def char? (subject : Subject) (pos : Nat) : Option Char := subject.line.chars[pos]?

/-- The character that can be taken at a position. -/
def charAt? (subject : Subject) (pos : Nat) : Option Char :=
  if pos < subject.limit then subject.char? pos else none

/-- Whether the character before a position is a word character. -/
def wordBefore (subject : Subject) (asciiOnly : Bool) (pos : Nat) : Bool :=
  if pos = 0 then false else (subject.char? (pos - 1)).any (isWordChar asciiOnly)

/-- Whether the character at a position is a word character. -/
def wordAt (subject : Subject) (asciiOnly : Bool) (pos : Nat) : Bool :=
  (subject.char? pos).any (isWordChar asciiOnly)

/-- Whether a condition holds at a position. At the start of the text a word has to be there to be
taken. -/
def satisfies (subject : Subject) (pos : Nat) : Anchor → Bool
  | .textStart => pos = 0
  | .textEnd => pos = subject.size
  | .lastLineEnd =>
    pos = subject.size || (pos + 1 = subject.size && subject.char? pos = some '\n')
  | .lineStart =>
    pos = 0 || (subject.char? (pos - 1) = some '\n' && pos ≠ subject.size)
  | .lineEnd => pos = subject.size || subject.char? pos = some '\n'
  | .searchStart => pos = subject.searchStart
  | .wordEdge asciiOnly =>
    if pos = 0 then 0 < subject.limit && subject.wordAt asciiOnly 0
    else subject.wordBefore asciiOnly pos != subject.wordAt asciiOnly pos
  | .notWordEdge asciiOnly =>
    if pos = 0 then !(0 < subject.limit && subject.wordAt asciiOnly 0)
    else subject.wordBefore asciiOnly pos == subject.wordAt asciiOnly pos

/-- The position after a text that stands at a position, if it does. -/
def after? (subject : Subject) (pos : Nat) : List Char → Option Nat
  | [] => some pos
  | c :: rest => if subject.charAt? pos = some c then after? subject (pos + 1) rest else none

/-- How many characters from `pos` on satisfy `takes`, up to `limit`. -/
def runLength (subject : Subject) (takes : Char → Bool) (pos : Nat) : Nat → Nat
  | 0 => 0
  | limit + 1 =>
    match subject.charAt? pos with
    | some c => if takes c then runLength subject takes (pos + 1) limit + 1 else 0
    | none => 0

/-- The position after a text where case does not count, the text being the `count` characters from
`first` on. It must not go past the byte `last`. -/
def afterAnyCase? (subject : Subject) (last first pos : Nat) : Nat → Option Nat
  | 0 => some pos
  | count + 1 =>
    match subject.char? first, subject.charAt? pos with
    | some c, some d =>
      if subject.line.charToByte (pos + 1) ≤ last && Text.caseFold c = Text.caseFold d then
        afterAnyCase? subject last (first + 1) (pos + 1) count
      else none
    | _, _ => none

/-- Compares the text from `start` to `stop` with the one at `pos`. There have to be as many bytes left
as it has, also where case does not count. -/
def compare (subject : Subject) (ignoreCase : Bool) (start stop pos : Nat) : Comparison :=
  let line := subject.line
  let last := line.charToByte pos + (line.charToByte stop - line.charToByte start)
  if stop ≤ start then .same pos
  else if line.charToByte subject.limit < last then .tooLong
  else
    let next :=
      if ignoreCase then subject.afterAnyCase? last start pos (stop - start)
      else subject.after? pos (line.chars.extract start stop).toList
    match next with
    | some next => .same next
    | none => .differs

end Subject
end ScopeLexer.Regex

import ScopeLexer.Text.CaseFolding
import ScopeLexer.Text.Category
import ScopeLexer.Text.Letter
import ScopeLexer.Text.Recent
import ScopeLexer.Text.Script

/-!
Sets of characters as patterns write them: ranges, named classes, and their unions, intersections and
complements, and sets in which the case of letters does not count. All named classes are those of
Unicode, of the edition before the newest one.
-/
namespace ScopeLexer.Regex

/-- The classes that have a name or an escape of their own. -/
inductive NamedClass where
  | word
  | digit
  | space
  | hexDigit
  | alpha
  | alnum
  | upper
  | lower
  | punct
  | blank
  | control
  | visible
  | printable
  | ascii
  | category (kind : Text.Category)
  | script (system : Text.Script)
  deriving Repr, DecidableEq, Inhabited

/-- Whether a character is a decimal digit in some script. -/
def isDigitChar (c : Char) : Bool := Text.isDecimalDigit c && !Text.isRecent c

/-- Whether a character is a letter in some script. -/
def isLetterChar (c : Char) : Bool := Text.isLetter c && !Text.isRecent c

def isCapitalChar (c : Char) : Bool := Text.isCapital c && !Text.isRecent c

/-- Whether a character is a small letter. The reversed glottal stop was one until the newest edition
gave it a capital with a small letter of its own. -/
def isSmallChar (c : Char) : Bool := (Text.isSmall c && !Text.isRecent c) || c.val = 0x295

/-- Whether a code point has a character. -/
def isKnownChar (c : Char) : Bool := Text.isAssigned c && !Text.isRecent c

def categoryOf (c : Char) : Text.Category :=
  if Text.isRecent c then .unassigned
  else if c.val = 0x295 then .smallLetter
  else Text.category c

/-- Whether a character is in the class of words: a letter, mark, digit or connector. -/
def inWordClass (c : Char) : Bool :=
  (Text.isLetter c || Text.isMark c || Text.isDecimalDigit c || Text.isConnector c) &&
    !Text.isRecent c

/-- Whether a character is one of the raised digits and fractions among the first 256 characters. -/
def isLatinNumber (c : Char) : Bool :=
  c.val = 0xb2 || c.val = 0xb3 || c.val = 0xb9 || (0xbc ≤ c.val && c.val ≤ 0xbe)

/-- Whether a character can be part of a word, or is one of the first 128 that can. Word edges, names of
groups and the escape `\w` outside a class go by this; a class leaves the raised digits and fractions
out. -/
def isWordChar (asciiOnly : Bool) (c : Char) : Bool :=
  if asciiOnly then c.isAlphanum || c = '_' else inWordClass c || isLatinNumber c

/-- Whether a character is a digit of base sixteen. -/
def isHexDigit (c : Char) : Bool :=
  c.isDigit || ('a' ≤ c && c ≤ 'f') || ('A' ≤ c && c ≤ 'F')

def NamedClass.contains : NamedClass → Char → Bool
  | .word, c => inWordClass c
  | .digit, c => isDigitChar c
  | .space, c => Text.isBlank c
  | .hexDigit, c => isHexDigit c
  | .alpha, c => isLetterChar c
  | .alnum, c => isLetterChar c || isDigitChar c
  | .upper, c => isCapitalChar c
  | .lower, c => isSmallChar c
  | .punct, c => (Text.isPunctuation c || Text.isSymbol c) && !Text.isRecent c
  | .blank, c => c = '\t' || (Text.isBlank c && 0x20 ≤ c.val && c.val ≠ 0x85 &&
      c.val ≠ 0x2028 && c.val ≠ 0x2029)
  | .control, c => c.val < 0x20 || (0x7f ≤ c.val && c.val < 0xa0)
  | .visible, c => 0x20 < c.val && !(0x7f ≤ c.val && c.val < 0xa0) && !Text.isBlank c && isKnownChar c
  | .printable, c => 0x20 ≤ c.val && !(0x7f ≤ c.val && c.val < 0xa0) && c.val ≠ 0x2028 &&
      c.val ≠ 0x2029 && isKnownChar c
  | .ascii, c => c.val < 0x80
  | .category kind, c => categoryOf c = kind
  | .script system, c => system.contains c && !Text.isRecent c

/-- A set of characters. -/
inductive CharSet where
  | empty
  /-- The characters with a code point from `first` to `last`. -/
  | range (first last : Nat)
  | named (name : NamedClass)
  | union (left right : CharSet)
  | inter (left right : CharSet)
  | complement (inner : CharSet)
  /-- The characters that are the same letter as one of the set. -/
  | anyCase (inner : CharSet)
  deriving Repr, DecidableEq, Inhabited

namespace CharSet

def single (c : Char) : CharSet := .range c.toNat c.toNat

def ofList (chars : List Char) : CharSet :=
  chars.foldr (fun c set => .union (single c) set) .empty

def contains : CharSet → Char → Bool
  | .empty, _ => false
  | .range first last, c => first ≤ c.toNat && c.toNat ≤ last
  | .named name, c => name.contains c
  | .union left right, c => left.contains c || right.contains c
  | .inter left right, c => left.contains c && right.contains c
  | .complement inner, c => !inner.contains c
  | .anyCase inner, c => inner.contains c || (Text.caseClass c).any inner.contains

/-- Whether a set is known to hold characters beyond the first 128. -/
def reachesBeyond : CharSet → Bool
  | .empty => false
  | .range _ last => 0x80 ≤ last
  | .named name => name ≠ .hexDigit && name ≠ .ascii
  | .union left right => left.reachesBeyond || right.reachesBeyond
  | .inter left right => left.reachesBeyond && right.reachesBeyond
  | .complement _ => true
  | .anyCase inner => inner.reachesBeyond || "sSkK".toList.any inner.contains

/-- Whether one of the first 128 characters is in both sets, each of which may be negated. -/
def meetsInAscii (left : CharSet) (leftNegated : Bool) (right : CharSet) (rightNegated : Bool) :
    Bool :=
  (List.range 0x80).any fun code =>
    let c := Char.ofNat code
    left.contains c != leftNegated && right.contains c != rightNegated

end CharSet
end ScopeLexer.Regex

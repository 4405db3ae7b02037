import ScopeLexer.Style.FontStyle
import ScopeLexer.Regex.Search

/-!
What is known of a token, packed into 32 bits. From the lowest bit on: the language (8 bits), the kind
of token (2), whether brackets in it are balanced (1), the font style (4), the number of the foreground
(9) and of the background (8). Merging leaves a field as it is where nothing is set.
-/
namespace ScopeLexer.Style

/-- The coarse kind of a token. -/
inductive TokenType where
  | other
  | comment
  | string
  | regex
  deriving Repr, DecidableEq, Inhabited

namespace TokenType

def code : TokenType → Nat
  | .other => 0
  | .comment => 1
  | .string => 2
  | .regex => 3

def ofCode : Nat → TokenType
  | 1 => .comment
  | 2 => .string
  | 3 => .regex
  | _ => .other

def word : TokenType → String
  | .other => "other"
  | .comment => "comment"
  | .string => "string"
  | .regex => "regex"

def describe : TokenType → String
  | .other => "Other"
  | .comment => "Comment"
  | .string => "String"
  | .regex => "RegEx"

/-- All kinds, in the order of their numbers. -/
def all : List TokenType := [.other, .comment, .string, .regex]

/-- The pattern for the part of a scope that tells the kind. -/
def pattern : Option Regex.Program :=
  (Regex.parse "\\b(comment|string|regex|meta\\.embedded)\\b").toOption

/-- The kind that a scope tells, if it does. Embedded text is of no special kind, and says so. -/
def ofScope (scope : String) : Option TokenType := do
  let line := SourceLine.ofText 0 scope
  let spans ← (← pattern).search line 0
  let span ← spans.group 1
  match ← line.slice? span.start span.stop with
  | "comment" => some .comment
  | "string" => some .string
  | "regex" => some .regex
  | _ => some .other

end TokenType

/-- Packed metadata of a token. -/
structure Metadata where
  word : UInt32
  deriving Repr, DecidableEq, Inhabited

def largestForeground : Nat := 511

def largestBackground : Nat := 255

/-- What to merge into metadata. A number of 0 and an absent value leave the field as it is. -/
structure Update where
  language : Nat := 0
  tokenType : Option TokenType := none
  balanced : Option Bool := none
  fontStyle : Option FontStyle := none
  foreground : Nat := 0
  background : Nat := 0
  deriving Repr, DecidableEq, Inhabited

namespace Metadata

/-- The `width` bits from bit `offset` on, as a number. -/
def field (data : Metadata) (offset width : Nat) : Nat :=
  (data.word.toNat >>> offset) % (1 <<< width)

def language (data : Metadata) : Nat := data.field 0 8

def tokenType (data : Metadata) : TokenType := .ofCode (data.field 8 2)

/-- Whether brackets in the token are balanced. -/
def balanced (data : Metadata) : Bool := data.field 10 1 = 1

def fontStyle (data : Metadata) : FontStyle := .ofNat (data.field 11 4)

def foreground (data : Metadata) : Nat := data.field 15 9

def background (data : Metadata) : Nat := data.field 24 8

/-- Packs the fields. The numbers are cut to the width of their field, but the font style is not: its
upper bits, if it has any, meet those of the foreground. -/
def pack (language : Nat) (tokenType : TokenType) (balanced : Bool) (fontStyle : FontStyle)
    (foreground background : Nat) : Metadata :=
  ⟨UInt32.ofNat (
    language % 0x100 ||| tokenType.code <<< 8 ||| balanced.toNat <<< 10 |||
      fontStyle.toNat <<< 11 ||| (foreground % 0x200) <<< 15 ||| (background % 0x100) <<< 24)⟩

/-- The new number of a colour: the one given if it is set and not too large, else the one held. -/
def chosenColor (given held largest : Nat) : Nat :=
  if given ≠ 0 && given ≤ largest then given else held

/-- Merges an update into metadata. -/
def set (data : Metadata) (update : Update) : Metadata :=
  pack
    (if update.language ≠ 0 then update.language else data.language)
    (update.tokenType.getD data.tokenType)
    (update.balanced.getD data.balanced)
    (update.fontStyle.getD data.fontStyle)
    (chosenColor update.foreground data.foreground largestForeground)
    (chosenColor update.background data.background largestBackground)

def unset : Metadata := ⟨0⟩

/-- The metadata in the form that debug output has. -/
def describe (data : Metadata) : String :=
  "TokenMetadata \x7b language_id: " ++ toString data.language ++
    ", token_type: " ++ data.tokenType.describe ++
    ", balanced_brackets: " ++ (if data.balanced then "true" else "false") ++
    ", font_style: " ++ data.fontStyle.describe ++
    ", foreground: " ++ toString data.foreground ++
    ", background: " ++ toString data.background ++ " \x7d"

end Metadata
end ScopeLexer.Style

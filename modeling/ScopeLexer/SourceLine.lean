/-!
One line of text as the regex engine sees it. The engine and the tokenizer count in bytes of the UTF-8
form, the callers in characters; a line keeps its characters and the byte offset at which each starts,
and converts between the two. A line has a number, so that a remembered search result can be tied to
the text it was found in.
-/
namespace ScopeLexer

/-- The byte offsets at which characters start, the first one at `offset`. -/
def byteStarts (offset : Nat) : List Char → List Nat
  | [] => []
  | c :: rest => offset :: byteStarts (offset + c.utf8Size) rest

/-- The number of bytes of some characters. -/
def byteLength : List Char → Nat
  | [] => 0
  | c :: rest => c.utf8Size + byteLength rest

/-- The number of indices from `low`, and before `high`, up to the first that fails `holds`, plus
`low`. The indices that satisfy `holds` are taken to come first. -/
def partitionPoint (holds : Nat → Bool) (low high : Nat) : Nat :=
  if low < high then
    let middle := (low + high) / 2
    if holds middle then partitionPoint holds (middle + 1) high
    else partitionPoint holds low middle
  else low
termination_by high - low

/-- A line: its number, its text, and what is read off the text. -/
structure SourceLine where
  id : Nat
  text : String
  chars : Array Char
  starts : Array Nat
  byteSize : Nat
  isAscii : Bool
  chars_eq : chars = text.toList.toArray
  starts_eq : starts = (byteStarts 0 text.toList).toArray
  byteSize_eq : byteSize = byteLength text.toList
  isAscii_eq : isAscii = text.toList.all (·.val < 0x80)

namespace SourceLine

def ofText (id : Nat) (text : String) : SourceLine where
  id := id
  text := text
  chars := text.toList.toArray
  starts := (byteStarts 0 text.toList).toArray
  byteSize := byteLength text.toList
  isAscii := text.toList.all (·.val < 0x80)
  chars_eq := rfl
  starts_eq := rfl
  byteSize_eq := rfl
  isAscii_eq := rfl

def charCount (line : SourceLine) : Nat := line.chars.size

/-- The byte at which a character starts, read off the table of starts. An index past the last
character gives the length in bytes. -/
def tableCharToByte (line : SourceLine) (index : Nat) : Nat :=
  line.starts[index]?.getD line.byteSize

/-- The character that holds a byte, found in the table of starts. A byte at or past the end gives
the number of characters. -/
def tableByteToChar (line : SourceLine) (byte : Nat) : Nat :=
  if line.byteSize ≤ byte then line.charCount
  else
    partitionPoint (fun index => decide (line.starts[index]?.getD line.byteSize ≤ byte)) 0
      line.charCount - 1

/-- The byte at which a character starts. On an ASCII line the two counts are the same. -/
def charToByte (line : SourceLine) (index : Nat) : Nat :=
  if line.isAscii then min index line.byteSize else line.tableCharToByte index

/-- The character that holds a byte. On an ASCII line the two counts are the same. -/
def byteToChar (line : SourceLine) (byte : Nat) : Nat :=
  if line.isAscii then min byte line.byteSize else line.tableByteToChar byte

/-- The first character that starts at a byte or after it. -/
def charFrom (line : SourceLine) (byte : Nat) : Nat :=
  let index := line.byteToChar byte
  if line.charToByte index < byte then index + 1 else index

/-- The text between two bytes, if both are where a character starts or the text ends. -/
def slice? (line : SourceLine) (first last : Nat) : Option String :=
  let start := line.byteToChar first
  let stop := line.byteToChar last
  if first ≤ last && line.charToByte start = first && line.charToByte stop = last then
    some (String.ofList (line.chars.extract start stop).toList)
  else none

/-- The line up to a byte, under a number of its own. -/
def upTo (line : SourceLine) (byte : Nat) (id : Nat) : SourceLine :=
  ofText id (String.ofList (line.chars.extract 0 (line.byteToChar byte)).toList)

end SourceLine
end ScopeLexer

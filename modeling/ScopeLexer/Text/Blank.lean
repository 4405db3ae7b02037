/-!
Blank characters, and the functions on text that look at them: trimming, and cutting into words.
Blank means the Unicode property White_Space, which is wider than the ASCII blanks.
-/
namespace ScopeLexer.Text

/-- Whether a character has the property White_Space. -/
def isBlank (c : Char) : Bool :=
  (0x9 ≤ c.val && c.val ≤ 0xd) || c.val = 0x20 || c.val = 0x85 || c.val = 0xa0 || c.val = 0x1680 ||
    (0x2000 ≤ c.val && c.val ≤ 0x200a) || (0x2028 ≤ c.val && c.val ≤ 0x2029) || c.val = 0x202f ||
    c.val = 0x205f || c.val = 0x3000

/-- The characters without those at the end that satisfy `drop`. -/
def dropEndWhile (drop : Char → Bool) (chars : List Char) : List Char :=
  (chars.reverse.dropWhile drop).reverse

/-- The characters without the blanks at either end. -/
def trimChars (chars : List Char) : List Char :=
  dropEndWhile isBlank (chars.dropWhile isBlank)

/-- The text without the blanks at either end. -/
def trim (text : String) : String := String.ofList (trimChars text.toList)

/-- The maximal runs of characters that are not blank. The first argument is the run being read,
the last character first. -/
def wordsFrom : List Char → List Char → List (List Char)
  | run, [] => if run.isEmpty then [] else [run.reverse]
  | run, c :: rest =>
    if isBlank c then
      if run.isEmpty then wordsFrom [] rest else run.reverse :: wordsFrom [] rest
    else wordsFrom (c :: run) rest

/-- The words of a text: what stands between blanks, empty pieces left out. -/
def words (text : String) : List String := (wordsFrom [] text.toList).map String.ofList

end ScopeLexer.Text

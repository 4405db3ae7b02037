import ScopeLexer.Text.LetterCase

/-!
Letters where case does not count. Every character is folded to the letter that it shares with its
other forms; a few, such as `ß` and the ligatures, are folded to two or three letters. Two characters
are the same letter if they are folded to the same.
-/
namespace ScopeLexer.Text

/-- What a character is folded to. The dotless i is a letter of its own. -/
def caseFold (c : Char) : List Char :=
  if c.val < 0x80 then [c.toLower]
  else if c.val = 0x131 then [c]
  else ((lowerChar c).flatMap upperChar).flatMap lowerChar

/-- Whether a character is folded to several letters. -/
def isLigature (c : Char) : Bool := (caseFold c).length ≠ 1

/-- What a character is folded to if that is one letter, else the character. -/
def foldChar (c : Char) : Char :=
  match caseFold c with
  | [one] => one
  | _ => c

/-- The characters that are folded to several letters, each with those. -/
def ligatures : List (Char × List Char) :=
  let codes := (lowerExpansions ++ upperExpansions).map Prod.fst ++ [0x1e9e]
  codes.map fun code => (Char.ofNat code, caseFold (Char.ofNat code))

/-- The characters that are folded to some letters, of which there are several. -/
def ligaturesOf (letters : List Char) : List Char :=
  (ligatures.filter (·.2 = letters)).map Prod.fst

/-- The letters that characters are folded to of which there are several, two letters before three. -/
def foldedSeveral : List (List Char) :=
  let all := (ligatures.map Prod.snd).eraseDups
  all.filter (·.length = 2) ++ all.filter (·.length = 3)

/-- The character that a run converts to `c`, if there is one. -/
def CaseRun.source? (run : CaseRun) (c : Char) : Option Char :=
  let code := c.toNat - run.shift
  if 0 ≤ code && run.holds code.toNat then some (Char.ofNat code.toNat) else none

/-- The characters that are folded to one letter. Some are capitals, some have a capital in common. -/
def lettersOf (letter : Char) : List Char :=
  let capitals := letter :: lowerRuns.filterMap (·.source? letter)
  let others := capitals.flatMap fun capital => upperRuns.filterMap (·.source? capital)
  ((capitals ++ others).filter (caseFold · = [letter])).eraseDups

/-- The characters that are the same letter as an ASCII character. -/
def asciiClass (c : Char) : List Char :=
  let letter := c.toLower
  if !letter.isAlpha then [c]
  else
    letter :: letter.toUpper ::
      (if letter = 's' then ['\u017f'] else if letter = 'k' then ['\u212a'] else [])

/-- All characters that are the same letter as `c`, and `c` itself. -/
def caseClass (c : Char) : List Char :=
  match caseFold c with
  | [letter] => if letter.val < 0x80 then asciiClass letter else lettersOf letter
  | letters => ligaturesOf letters

end ScopeLexer.Text

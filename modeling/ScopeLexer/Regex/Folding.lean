import ScopeLexer.Regex.Expr

/-!
Texts and classes where case does not count. Each letter of a text may be any of its forms. Two or
three letters may be written as one character, as `ss` is written `ß` and `ffi` as a ligature, and such
a character as the letters it stands for: a text is divided from the left into the longest parts that one
character can stand for, and a class that holds such a character also takes the letters.
-/
namespace ScopeLexer.Regex

/-- How many characters at the start of a text one character can stand for. -/
def ligatureLength (chars : List Char) : Nat :=
  let stands (count : Nat) : Bool :=
    count ≤ chars.length && !(Text.ligaturesOf ((chars.take count).map Text.foldChar)).isEmpty
  if stands 3 then 3 else if stands 2 then 2 else 1

/-- A text divided from the left into the longest parts that one character can stand for. -/
def ligatureParts : List Char → List (List Char)
  | [] => []
  | c :: rest =>
    let extra := ligatureLength (c :: rest) - 1
    (c :: rest.take extra) :: ligatureParts (rest.drop extra)
termination_by chars => chars.length
decreasing_by simp only [List.length_drop, List.length_cons]; omega

/-- All ways to write some letters, each in any of its forms. -/
def spellings : List Char → List (List Char)
  | [] => [[]]
  | c :: rest => (Text.caseClass c).flatMap fun form => (spellings rest).map (form :: ·)

namespace Expr

/-- A letter in any of its forms; a character that has no other form is a text. -/
def letter (c : Char) : Expr :=
  match Text.caseClass c with
  | [] | [_] => .text [c] false
  | forms => .oneOf (.ofList forms) false

/-- A part of a text where case does not count: a letter, or a choice of the ways to write the part, the
way it stands in the text first. -/
def spelledPart : List Char → Expr
  | [c] =>
    if Text.isLigature c then
      let letters := Text.caseFold c
      .choice ((([c] :: ((Text.ligaturesOf letters).filter (· ≠ c)).map ([·])) ++
        spellings letters).map (.text · false))
    else letter c
  | part =>
    let letters := part.map Text.foldChar
    .choice (((part :: (Text.ligaturesOf letters).map ([·])) ++
      (spellings letters).filter (· ≠ part)).map (.text · false))

/-- Puts expressions in a row, texts that follow each other being one. -/
def joined : List Expr → List Expr
  | [] => []
  | expr :: rest =>
    match expr, joined rest with
    | .text chars false, .text more false :: others => .text (chars ++ more) false :: others
    | expr, others => expr :: others

/-- A text where case does not count, spelled out. In a look-behind each character stands for one. -/
def spelledOut (inLookBehind : Bool) (chars : List Char) : Expr :=
  sequence (joined (if inLookBehind then chars.map letter else (ligatureParts chars).map spelledPart))

/-- The letters that a character is folded to, each in any of its forms. -/
def foldedLetters (letters : List Char) : Expr := sequence (joined (letters.map letter))

end Expr

/-- The letters that a class takes in place of a character in it, once for each such character. In the
forms of one character the first that is in the class puts all that follow it into the class. -/
def CharSet.ligatureBranches (set : CharSet) : List Expr :=
  Text.foldedSeveral.flatMap fun letters =>
    ((Text.ligaturesOf letters).dropWhile fun c => !set.contains c).map fun _ =>
      Expr.foldedLetters letters

/-- A class where case does not count. Only a class that is not negated takes letters in place of a
character. -/
def CharSet.inAnyCase (set : CharSet) (negated : Bool) : Expr :=
  let single := Expr.oneOf (.anyCase set) negated
  if negated then single
  else
    match set.ligatureBranches with
    | [] => single
    | branches => .choice (single :: branches)

end ScopeLexer.Regex

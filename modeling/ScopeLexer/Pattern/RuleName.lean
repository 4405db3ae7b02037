import ScopeLexer.Pattern.Backreference
import ScopeLexer.Text.LetterCase

/-!
Names of rules. A name may refer to what its rule's match captured: `$1` stands for the text of group 1,
and `${1:/downcase}` and `${1:/upcase}` for the same text in small letters or in capitals. Dots at the
start of the text are left out.
-/
namespace ScopeLexer.Pattern

open Regex

/-- How captured text is changed. -/
inductive CaseChange where
  | keep
  | downcase
  | upcase
  deriving Repr, DecidableEq, Inhabited

def CaseChange.apply : CaseChange → String → String
  | .keep, text => text
  | .downcase, text => Text.toLower text
  | .upcase, text => Text.toUpper text

/-- A part of a name: a character, or a reference with its digits and as written. -/
inductive NamePart where
  | char (c : Char)
  | reference (digits : List Char) (change : CaseChange) (written : List Char)
  deriving Repr, DecidableEq, Inhabited

/-- The reference at the start of what follows a dollar sign, if there is one. -/
def readReference (rest : List Char) : Option NamePart :=
  let plain := rest.takeWhile isDigitChar
  if !plain.isEmpty then some (.reference plain .keep ('$' :: plain))
  else
    match rest with
    | '\x7b' :: inner =>
      let digits := inner.takeWhile isDigitChar
      let after := inner.drop digits.length
      let changes : List (CaseChange × List Char) :=
        [(.downcase, ":/downcase\x7d".toList), (.upcase, ":/upcase\x7d".toList)]
      if digits.isEmpty then none
      else
        (changes.find? fun (_, word) => word.isPrefixOf after).map fun (change, word) =>
          .reference digits change ('$' :: '\x7b' :: digits ++ word)
    | _ => none

def nameParts : List Char → List NamePart
  | [] => []
  | c :: rest =>
    match if c = '$' then readReference rest else none with
    | some (.reference digits change written) =>
      .reference digits change written :: nameParts (rest.drop (written.length - 1))
    | _ => .char c :: nameParts rest
termination_by chars => chars.length
decreasing_by all_goals simp only [List.length_drop, List.length_cons]; omega

/-- What a part stands for. A reference to text that is not there stands for itself. -/
def NamePart.resolve (line : SourceLine) (spans : Spans) : NamePart → String
  | .char c => String.singleton c
  | .reference digits change written =>
    match (groupNumber? digits).bind (captured? line spans) with
    | some text => change.apply (String.ofList (text.toList.dropWhile (· = '.')))
    | none => String.ofList written

def NamePart.isReference : NamePart → Bool
  | .char _ => false
  | .reference _ _ _ => true

def isCapturing (name : String) : Bool := (nameParts name.toList).any (·.isReference)

/-- A name with its references resolved. -/
def resolveName (name : String) (line : SourceLine) (spans : Spans) : String :=
  String.join ((nameParts name.toList).map (·.resolve line spans))

end ScopeLexer.Pattern

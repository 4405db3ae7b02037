/-!
Which of the conditions `\A` and `\G` can hold where a line is searched. `\A` holds only on the first
line of a document, and `\G` only where the last match ended. A pattern is compiled in up to four
flavours, in which the conditions that cannot hold are replaced by a character that no text has.
-/
namespace ScopeLexer.Pattern

inductive Flavour where
  | both
  | onlyA
  | onlyG
  | neither
  deriving Repr, DecidableEq, Inhabited

namespace Flavour

/-- The flavour for a search: `\G` can hold if the search starts where the last match ended. -/
def ofSearch (isFirstLine : Bool) (anchor : Option Nat) (pos : Nat) : Flavour :=
  match isFirstLine, decide (anchor = some pos) with
  | true, true => .both
  | true, false => .onlyA
  | false, true => .onlyG
  | false, false => .neither

/-- Whether the condition named by a letter can hold. -/
def allows : Flavour → Char → Bool
  | .both, _ => true
  | .onlyA, letter => letter = 'A'
  | .onlyG, letter => letter = 'G'
  | .neither, _ => false

def noChar : Char := '\uffff'

/-- Replaces the conditions that cannot hold. A backslash and the character after it are one unit, so an
escaped backslash does not make a condition of the letter after it. -/
def replaceChars (flavour : Flavour) : List Char → List Char
  | [] => []
  | ['\\'] => ['\\']
  | '\\' :: letter :: rest =>
    if (letter = 'A' || letter = 'G') && !flavour.allows letter then
      noChar :: replaceChars flavour rest
    else '\\' :: letter :: replaceChars flavour rest
  | c :: rest => c :: replaceChars flavour rest

/-- Replaces the conditions from the character at `pos` on. The pattern up to `last` has been written; what
follows is copied when the next condition is met that cannot hold, or at the end. -/
def spliceFrom (flavour : Flavour) (pattern written : List Char) (last pos : Nat) :
    List Char → List Char
  | [] | ['\\'] => written ++ pattern.drop last
  | '\\' :: letter :: rest =>
    if (letter = 'A' || letter = 'G') && !flavour.allows letter then
      let copied := (pattern.drop last).take (pos - last)
      spliceFrom flavour pattern (written ++ copied ++ [noChar]) (pos + 2) (pos + 2) rest
    else spliceFrom flavour pattern written last (pos + 2) rest
  | _ :: rest => spliceFrom flavour pattern written last (pos + 1) rest

/-- The pattern with the conditions that cannot hold replaced. -/
def replaceAnchors (flavour : Flavour) (pattern : String) : String :=
  if flavour = .both then pattern
  else String.ofList (spliceFrom flavour pattern.toList [] 0 0 pattern.toList)

end Flavour
end ScopeLexer.Pattern

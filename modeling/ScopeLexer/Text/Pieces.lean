/-!
Cutting a text at a separator. A text with `n` separators has `n + 1` pieces, empty ones included,
and joining the pieces with the separator gives the text back.
-/
namespace ScopeLexer.Text

/-- The pieces between the occurrences of `separator`. -/
def piecesOf (separator : Char) : List Char → List (List Char)
  | [] => [[]]
  | c :: rest =>
    if c = separator then [] :: piecesOf separator rest
    else
      match piecesOf separator rest with
      | [] => [[c]]
      | piece :: pieces => (c :: piece) :: pieces

/-- The pieces of a text between the occurrences of `separator`. -/
def pieces (separator : Char) (text : String) : List String :=
  (piecesOf separator text.toList).map String.ofList

/-- What stands before and after the first occurrence of `separator`, if there is one. -/
def cutChars (separator : Char) : List Char → Option (List Char × List Char)
  | [] => none
  | c :: rest =>
    if c = separator then some ([], rest)
    else (cutChars separator rest).map fun (before, after) => (c :: before, after)

/-- What stands before and after the first occurrence of `separator`, if there is one. -/
def cut (separator : Char) (text : String) : Option (String × String) :=
  (cutChars separator text.toList).map fun (before, after) =>
    (String.ofList before, String.ofList after)

/-- What remains of `chars` after `start`, if `chars` starts so. -/
def dropStart? : List Char → List Char → Option (List Char)
  | [], rest => some rest
  | _ :: _, [] => none
  | c :: start, d :: rest => if c = d then dropStart? start rest else none

/-- The line without the carriage return at its end, if there is one. -/
def dropReturn (line : List Char) : List Char :=
  if line.getLast? = some '\r' then line.dropLast else line

/-- The lines of a text. A line ends at `\n` or `\r\n`. What follows the last line end is a line
only if it is not empty, and a carriage return in it belongs to it. -/
def lines (text : String) : List String :=
  let parts := piecesOf '\n' text.toList
  let ended := parts.dropLast.map dropReturn
  let rest := parts.getLast?.toList.filter (! ·.isEmpty)
  (ended ++ rest).map String.ofList

end ScopeLexer.Text

import ScopeLexer.Text.LetterCase

/-!
The colours of a theme, numbered from 1 in the order in which they are first asked for. Number 0 means
that no colour is set. Colours that differ only in case are the same.
-/
namespace ScopeLexer.Style

/-- Colours in capitals by number; number 0 holds an empty text. -/
structure ColorMap where
  colors : Array String := #[""]
  deriving Repr, DecidableEq, Inhabited

namespace ColorMap

/-- The number of a colour, given a new one if it has none. No colour has number 0. -/
def number (map : ColorMap) : Option String → Nat × ColorMap
  | none => (0, map)
  | some color =>
    let capital := Text.toUpper color
    match (map.colors.toList.drop 1).idxOf? capital with
    | some index => (index + 1, map)
    | none => (map.colors.size, ⟨map.colors.push capital⟩)

/-- The colour of a number; 0 has none. -/
def color? (map : ColorMap) (number : Nat) : Option String :=
  if number = 0 then none else map.colors[number]?

end ColorMap
end ScopeLexer.Style

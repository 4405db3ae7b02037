/-!
Sets of characters given by sorted, disjoint ranges of code points. The tables of the Unicode
properties are such sets; a look-up halves the table at each step, so that a class such as "letter"
costs ten comparisons and not seven hundred.
-/
namespace ScopeLexer.Text

/-- Inclusive ranges of code points, in increasing order and disjoint. -/
structure RangeTable where
  ranges : Array (Nat × Nat)

namespace RangeTable

/-- Looks for a range that holds `code` among those with an index from `low` up to, and not with,
`high`. -/
def search (table : RangeTable) (code : Nat) (low high : Nat) : Bool :=
  if low < high then
    let middle := (low + high) / 2
    match table.ranges[middle]? with
    | none => false
    | some (first, last) =>
      if code < first then search table code low middle
      else if last < code then search table code (middle + 1) high
      else true
  else false
termination_by high - low

/-- Whether a code point lies in one of the ranges. -/
def contains (table : RangeTable) (code : Nat) : Bool :=
  table.search code 0 table.ranges.size

end RangeTable
end ScopeLexer.Text

import ScopeLexer.Warning

/-!
What an observer sees of the work besides its results: the patterns handed to the regex engine, and the
warnings, each in order. Where a count overflows, a program that checks for that ends; the journal says how
often it would have.
-/
namespace ScopeLexer

/-- The record of an observer. -/
structure Journal where
  /-- The patterns handed to the regex engine, also those it refused. -/
  patterns : Array String := #[]
  warnings : Array Warning := #[]
  /-- How often the room for the groups of a match could not be counted in 64 bits. -/
  overflows : Nat := 0
  deriving Repr, Inhabited

namespace Journal

/-- The journal after a pattern was handed to the regex engine. -/
def compiled (journal : Journal) (pattern : String) : Journal :=
  { journal with patterns := journal.patterns.push pattern }

def warn (journal : Journal) (warning : Warning) : Journal :=
  { journal with warnings := journal.warnings.push warning }

/-- The journal after a count that overflowed. -/
def overflowed (journal : Journal) : Journal := { journal with overflows := journal.overflows + 1 }

def warnAll (journal : Journal) (warnings : List Warning) : Journal :=
  { journal with warnings := journal.warnings ++ warnings.toArray }

end Journal
end ScopeLexer

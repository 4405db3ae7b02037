import ScopeLexer.Dictionary
import ScopeLexer.Grammar.Rule

/-!
The compiled patterns of a grammar in use. Besides the grammar's own patterns there are the ends and
conditions whose back-references have been resolved. Every new text gives a new one of these, so they
are all dropped when there are too many.
-/
namespace ScopeLexer.Pattern

open Grammar Regex

/-- The most resolved patterns that are kept. -/
def resolvedLimit : Nat := 256

/-- Patterns with what has been compiled of them. -/
structure Store where
  /-- The grammar's own patterns, by number. -/
  patterns : Array CachedPattern := #[]
  /-- Resolved patterns, by text. -/
  resolved : Dictionary String CachedPattern := {}
  journal : Journal := {}

namespace Store

/-- A pattern of the grammar, compiled for a flavour, and whether it has `\G`. -/
def own (store : Store) (engine : Engine) (id : PatternId) (flavour : Flavour) :
    (Option Searcher × Bool) × Store :=
  match store.patterns[id]? with
  | none => ((none, false), store)
  | some cached =>
    let (searcher, cached, journal) := cached.compiled engine flavour store.journal
    ((searcher, cached.pattern.hasG),
      { store with patterns := store.patterns.setIfInBounds id cached, journal := journal })

/-- A resolved pattern, as kept or new, in a map that has room for it. -/
def recallResolved (resolved : Dictionary String CachedPattern) (text : String) :
    CachedPattern × Dictionary String CachedPattern :=
  match resolved.get? text with
  | some cached => (cached, resolved)
  | none => (.ofText text, if resolvedLimit ≤ resolved.size then {} else resolved)

/-- A resolved pattern, compiled for a flavour, and whether it has `\G`. -/
def resolvedText (store : Store) (engine : Engine) (text : String) (flavour : Flavour) :
    (Option Searcher × Bool) × Store :=
  let (cached, resolved) := recallResolved store.resolved text
  let (searcher, cached, journal) := cached.compiled engine flavour store.journal
  ((searcher, cached.pattern.hasG),
    { store with resolved := resolved.insert text cached, journal := journal })

def warn (store : Store) (warning : Warning) : Store :=
  { store with journal := store.journal.warn warning }

end Store
end ScopeLexer.Pattern

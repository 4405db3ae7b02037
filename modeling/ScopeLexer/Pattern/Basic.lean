import ScopeLexer.Journal
import ScopeLexer.Pattern.Flavour
import ScopeLexer.Regex.Engine

/-!
The patterns of a grammar. A pattern is normalised when it is read, and compiled when it is needed, once
in each flavour. Lines are searched with a line end at their end that `\z` must not see, so `\z` is
written in other words.
-/
namespace ScopeLexer

structure Pattern where
  /-- The text, normalised. -/
  source : String
  /-- `\A` occurs. -/
  hasA : Bool := false
  /-- `\G` occurs: what a search finds depends on where it starts. -/
  hasG : Bool := false
  /-- A back-reference occurs. -/
  hasReferences : Bool := false
  deriving Repr, DecidableEq, Inhabited

namespace Pattern

open Regex

/-- What `\z` is replaced by: an end of line without a line end on either side. -/
def endOfText : List Char := "$(?!\\n)(?<!\\n)".toList

/-- A pattern being normalised, its text as a list of characters. -/
structure Draft where
  chars : List Char := []
  hasA : Bool := false
  hasG : Bool := false
  hasReferences : Bool := false

def normalise : List Char → Draft
  | [] => {}
  | ['\\'] => { chars := ['\\'] }
  | '\\' :: letter :: rest =>
    let draft := normalise rest
    if letter = 'z' then { draft with chars := endOfText ++ draft.chars }
    else
      { chars := '\\' :: letter :: draft.chars
        hasA := letter = 'A' || draft.hasA
        hasG := letter = 'G' || draft.hasG
        hasReferences := ('1' ≤ letter && letter ≤ '9') || draft.hasReferences }
  | c :: rest =>
    let draft := normalise rest
    { draft with chars := c :: draft.chars }

def ofText (text : String) : Pattern :=
  let draft := normalise text.toList
  ⟨String.ofList draft.chars, draft.hasA, draft.hasG, draft.hasReferences⟩

/-- Whether the flavours differ. -/
def hasAnchors (pattern : Pattern) : Bool := pattern.hasA || pattern.hasG

end Pattern

/-- A pattern with what has been compiled of it. A flavour that was tried and refused by the engine is
remembered as well. -/
structure CachedPattern where
  pattern : Pattern
  both : Option (Option Regex.Searcher) := none
  onlyA : Option (Option Regex.Searcher) := none
  onlyG : Option (Option Regex.Searcher) := none
  neither : Option (Option Regex.Searcher) := none

namespace CachedPattern

open Pattern Regex

/-- The pattern with a text, nothing compiled. -/
def ofText (text : String) : CachedPattern := { pattern := Pattern.ofText text }

/-- What is remembered for a flavour. -/
def slot (cached : CachedPattern) : Flavour → Option (Option Searcher)
  | .both => cached.both
  | .onlyA => cached.onlyA
  | .onlyG => cached.onlyG
  | .neither => cached.neither

/-- Remembers what was compiled for a flavour. -/
def setSlot (cached : CachedPattern) (flavour : Flavour) (result : Option Searcher) :
    CachedPattern :=
  match flavour with
  | .both => { cached with both := some result }
  | .onlyA => { cached with onlyA := some result }
  | .onlyG => { cached with onlyG := some result }
  | .neither => { cached with neither := some result }

/-- Remembers what was compiled for a flavour, unless something is remembered already. -/
def fillSlot (cached : CachedPattern) (flavour : Flavour) (result : Option Searcher) :
    CachedPattern :=
  if (cached.slot flavour).isSome then cached else cached.setSlot flavour result

/-- Compiles the pattern as written, or says why the engine refuses it. -/
def validate (cached : CachedPattern) (engine : Engine) (journal : Journal) :
    Except String CachedPattern × Journal :=
  let journal := journal.compiled cached.pattern.source
  match engine.compile cached.pattern.source with
  | .ok searcher => (.ok (cached.fillSlot .both (some searcher)), journal)
  | .error reason => (.error reason, journal)

/-- The flavour under which a pattern is remembered: one for all if they do not differ. -/
def slotFlavour (cached : CachedPattern) (flavour : Flavour) : Flavour :=
  if cached.pattern.hasAnchors then flavour else .both

/-- The compiled pattern for a flavour, unless the engine refuses it. It is compiled when first asked
for. -/
def compiled (cached : CachedPattern) (engine : Engine) (flavour : Flavour) (journal : Journal) :
    Option Searcher × CachedPattern × Journal :=
  let flavour := cached.slotFlavour flavour
  match cached.slot flavour with
  | some result => (result, cached, journal)
  | none =>
    let text := flavour.replaceAnchors cached.pattern.source
    let journal := journal.compiled text
    match engine.compile text with
    | .ok searcher => (some searcher, cached.setSlot flavour (some searcher), journal)
    | .error reason =>
      (none, cached.setSlot flavour none,
        journal.warn (.patternRejected cached.pattern.source reason))

end CachedPattern
end ScopeLexer

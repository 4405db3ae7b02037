import ScopeLexer.Grammar.Rule

/-!
The patterns that may match next, in order of preference. The match that starts first wins, and of
those that start together the one whose pattern comes first. While a line is scanned from left to right
a pattern remembers its last search: what it found still holds for every later start up to the match.
Patterns with `\G` depend on where a search starts, so nothing is remembered of them.
-/
namespace ScopeLexer.Line

open Grammar Regex

inductive Target where
  /-- A rule is entered. -/
  | enter (rule : RuleId)
  /-- The rule at the top is left, or goes on for another line. -/
  | leave
  deriving Repr, DecidableEq, Inhabited

/-- A match of one of several patterns. -/
structure Match where
  target : Target
  start : Nat
  stop : Nat
  spans : Spans
  deriving Repr, DecidableEq, Inhabited

/-- A search that was made, and what it found. -/
structure Memo where
  lineId : Nat
  start : Nat
  result : Option Spans
  deriving Repr, DecidableEq, Inhabited

/-- A pattern among others. -/
structure Entry where
  target : Target
  /-- Absent if the pattern does not compile: it then matches nothing. -/
  searcher : Option Searcher
  /-- `\G` occurs in the pattern. -/
  hasG : Bool
  memo : Option Memo := none

namespace Entry

/-- What a remembered search says about a search of a line from a byte, if it says anything. -/
def remembered? (entry : Entry) (line : SourceLine) (pos : Nat) : Option (Option Spans) := do
  let memo ← entry.memo
  if memo.lineId = line.id && memo.start ≤ pos then
    match memo.result with
    | none => some none
    | some spans => if spans.whole.any (pos ≤ ·.start) then some (some spans) else none
  else none

/-- Searches a line from a byte without what is remembered. -/
def searchAfresh (entry : Entry) (line : SourceLine) (pos : Nat) : Option Spans :=
  entry.searcher.bind fun searcher => searcher.search line pos

def search (entry : Entry) (line : SourceLine) (pos : Nat) : Option Spans × Entry :=
  match entry.searcher with
  | none => (none, entry)
  | some searcher =>
    if entry.hasG then (searcher.search line pos, entry)
    else
      match entry.remembered? line pos with
      | some result => (result, entry)
      | none =>
        let result := searcher.search line pos
        (result, { entry with memo := some ⟨line.id, pos, result⟩ })

/-- The match that spans make for a pattern. -/
def toMatch (entry : Entry) (spans : Spans) : Option Match :=
  spans.whole.map fun span => ⟨entry.target, span.start, span.stop, spans⟩

end Entry

/-- The better of two matches: the second if it starts before the first. -/
def better (best : Option Match) (found : Match) : Bool :=
  match best with
  | none => true
  | some best => found.start < best.start

/-- Patterns in order of preference. -/
structure PatternSet where
  entries : List Entry

namespace PatternSet

/-- Searches with each pattern for a better match than the best so far. A match at the byte where the
search starts cannot be bettered, so the search ends with it. -/
def findFrom (line : SourceLine) (pos : Nat) (best : Option Match) :
    List Entry → Option Match × List Entry
  | [] => (best, [])
  | entry :: entries =>
    let (spans, searched) := entry.search line pos
    match (spans.bind entry.toMatch).filter (better best) with
    | none =>
      let (found, rest) := findFrom line pos best entries
      (found, searched :: rest)
    | some found =>
      if found.start = pos then (some found, searched :: entries)
      else
        let (found, rest) := findFrom line pos (some found) entries
        (found, searched :: rest)

/-- The first match of a line at or after a byte. -/
def find (set : PatternSet) (line : SourceLine) (pos : Nat) : Option Match × PatternSet :=
  let (found, entries) := findFrom line pos none set.entries
  (found, ⟨entries⟩)

end PatternSet
end ScopeLexer.Line

/-!
Where a match and its groups lie in a text. Group 0 is the whole match; a group that took no part has
no span.
-/
namespace ScopeLexer.Regex

/-- A stretch of text, from `start` up to, and not with, `stop`. -/
structure Span where
  start : Nat
  stop : Nat
  deriving Repr, DecidableEq, Inhabited

/-- The spans of the groups of a match, by group number. -/
abbrev Spans := Array (Option Span)

namespace Spans

def whole (spans : Spans) : Option Span := (spans[0]?).join

def group (spans : Spans) (index : Nat) : Option Span := (spans[index]?).join

end Spans
end ScopeLexer.Regex

import ScopeLexer.Regex.Search

/-!
What the tokenizer needs of a regex engine: to compile a pattern, and to search a line with the
result. The tokenizer takes the engine as a value, so that what it does can be stated for every engine
that keeps the rules.
-/
namespace ScopeLexer.Regex

/-- A compiled pattern: finds the first match at or after a byte of a line. -/
structure Searcher where
  search : SourceLine → Nat → Option Spans

/-- A regex engine: compiles a pattern, or says why it does not. -/
structure Engine where
  compile : String → Except String Searcher

def backtracking : Engine where
  compile pattern :=
    match parse pattern with
    | .ok program => .ok ⟨program.search⟩
    | .error error => .error error.message

end ScopeLexer.Regex

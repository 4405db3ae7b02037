import ScopeLexer.Proofs.MemoSearch
import ScopeLexer.Proofs.Offsets
import ScopeLexer.Proofs.StoreSoundness

/-! What is asked of a regex engine. Its spans lie where the text can be cut, a
match lies between the byte where the search starts and the end of the text, and
a search from a later byte agrees with one from an earlier byte. None of this is
asked of all patterns at once by every theorem: each names what it needs.

The engine that takes patterns literally keeps all of it: it finds the first
place where the text goes on with the pattern. -/
namespace ScopeLexer

open Regex

/-- The groups of every match lie where the text can be cut. -/
def Regex.Engine.RespectsCuts (engine : Engine) : Prop :=
  ∀ searcher, engine.Makes searcher → ∀ line pos spans, searcher.search line pos = some spans →
    ∀ group span, spans.group group = some span → line.Cut span.start ∧ line.Cut span.stop

/-- What a searcher finds lies between the start of the search and the end of the text. -/
def Regex.Searcher.StaysInside (searcher : Searcher) : Prop :=
  ∀ line pos spans whole, searcher.search line pos = some spans → spans.whole = some whole →
    pos ≤ whole.start ∧ whole.start ≤ whole.stop ∧ whole.stop ≤ line.byteSize

/-- A match lies between the start of the search and the end of the text. -/
def Regex.Engine.StaysInside (engine : Engine) : Prop :=
  ∀ searcher, engine.Makes searcher → ∀ line pos spans whole,
    searcher.search line pos = some spans → spans.whole = some whole →
    pos ≤ whole.start ∧ whole.start ≤ whole.stop ∧ whole.stop ≤ line.byteSize

/-- The spans that backtracking gives are spans of characters. -/
theorem Regex.respectsCuts_backtracking : backtracking.RespectsCuts := by
  intro searcher made line pos spans searched group span held
  obtain ⟨text, compiled⟩ := made
  unfold backtracking at compiled
  simp only at compiled
  split at compiled
  next program parsed =>
    cases compiled
    simp only [Program.search] at searched
    split at searched
    · cases searched
    · split at searched
      · cases searched
      · obtain ⟨found, _, rfl⟩ := Option.map_eq_some_iff.mp searched
        simp only [Spans.group, Array.getElem?_map, Option.join_eq_some_iff,
          Option.map_eq_some_iff] at held
        obtain ⟨_, _, chars, _, rfl⟩ := held
        exact ⟨SourceLine.cut_charToByte _, SourceLine.cut_charToByte _⟩
  next => cases compiled

namespace Regex

/-- The first place at or after a byte where a line goes on with a word. -/
def literalSearch (word : List Char) (line : SourceLine) (pos : Nat) : Option Spans :=
  ((List.range (line.charCount + 1)).find? fun index =>
    decide (pos ≤ line.charToByte index) && word.isPrefixOf (line.text.toList.drop index)).map
      fun index => #[some ⟨line.charToByte index, line.charToByte (index + word.length)⟩]

/-- The engine that takes patterns literally. -/
def literal : Engine where
  compile pattern := .ok ⟨literalSearch pattern.toList⟩

variable {word : List Char} {line : SourceLine}

theorem literal_makes (made : literal.Makes searcher) :
    ∃ word, searcher = ⟨literalSearch word⟩ := by
  obtain ⟨text, compiled⟩ := made
  cases compiled
  exact ⟨text.toList, rfl⟩

/-- What is found starts with the first character that will do. -/
theorem literalSearch_some (found : literalSearch word line pos = some spans) :
    ∃ index, spans = #[some ⟨line.charToByte index, line.charToByte (index + word.length)⟩] ∧
      pos ≤ line.charToByte index ∧ word.isPrefixOf (line.text.toList.drop index) = true ∧
      index ≤ line.charCount ∧
      ∀ earlier < index, pos ≤ line.charToByte earlier →
        word.isPrefixOf (line.text.toList.drop earlier) = false := by
  obtain ⟨index, first, rfl⟩ := Option.map_eq_some_iff.mp found
  rw [List.find?_range_eq_some] at first
  obtain ⟨holds, bound, others⟩ := first
  simp only [Bool.and_eq_true, decide_eq_true_eq] at holds
  refine ⟨index, rfl, holds.1, holds.2, by simpa [Nat.lt_succ_iff] using bound, ?_⟩
  intro earlier before reaches
  have fails := others earlier before
  simpa [reaches] using fails

/-- The first place of a word from a later start is the first one not before it. -/
theorem literalSearch_steady (word : List Char) :
    ({ search := literalSearch word } : Searcher).Steady where
  nothing line first later le none := by
    simp only [literalSearch, Option.map_eq_none_iff, List.find?_range_eq_none] at none ⊢
    intro index bound
    have fails := none index bound
    simp only [Bool.not_eq_eq_eq_not, Bool.not_true, Bool.and_eq_false_iff,
      decide_eq_false_iff_not] at fails ⊢
    rcases fails with behind | fails
    · exact .inl (by omega)
    · exact .inr fails
  ahead line first later spans whole le found held reaches := by
    obtain ⟨index, rfl, start, goesOn, bound, others⟩ := literalSearch_some found
    cases held
    simp only [literalSearch, Option.map_eq_some_iff]
    refine ⟨index, ?_, rfl⟩
    rw [List.find?_range_eq_some]
    refine ⟨by simpa [goesOn] using reaches, by simp; omega, ?_⟩
    intro earlier before
    by_cases behind : later ≤ line.charToByte earlier
    · simp [others earlier before (by omega)]
    · simp [behind]

theorem literal_staysInside : literal.StaysInside := by
  intro searcher made line pos spans whole found held
  obtain ⟨word, rfl⟩ := literal_makes made
  obtain ⟨index, rfl, start, _⟩ := literalSearch_some found
  cases held
  exact ⟨start, line.charToByte_mono (Nat.le_add_right _ _), line.charToByte_le_byteSize _⟩

theorem literal_respectsCuts : literal.RespectsCuts := by
  intro searcher made line pos spans found group span held
  obtain ⟨word, rfl⟩ := literal_makes made
  obtain ⟨index, rfl, _⟩ := literalSearch_some found
  cases group with
  | zero =>
    cases held
    exact ⟨SourceLine.cut_charToByte _, SourceLine.cut_charToByte _⟩
  | succ group => cases held

end Regex
end ScopeLexer

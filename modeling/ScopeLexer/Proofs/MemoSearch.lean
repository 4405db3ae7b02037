import ScopeLexer.Line.PatternSet

/-! What a set of patterns remembers never changes its answers. A memo is
honest if it holds what a search of its line from its start gives; searching
keeps memos honest, whatever lines and starts are asked for in whatever order.
An honest memo answers for a later start just as the search would, if the
pattern is steady: once it finds nothing it finds nothing later, and a match
ahead of a later start is the match from that start. -/
namespace ScopeLexer.Regex.Searcher

/-- A search from a later start finds nothing where one from an earlier start
finds nothing, and finds the same match if that lies ahead of it. -/
structure Steady (searcher : Searcher) : Prop where
  nothing : ∀ line first later, first ≤ later →
    searcher.search line first = none → searcher.search line later = none
  ahead : ∀ line first later spans whole, first ≤ later →
    searcher.search line first = some spans → spans.whole = some whole → later ≤ whole.start →
    searcher.search line later = some spans

end ScopeLexer.Regex.Searcher

namespace ScopeLexer.Line

open Regex

/-- Lines are told apart by their numbers. -/
def Distinct (lines : List SourceLine) : Prop :=
  ∀ first ∈ lines, ∀ second ∈ lines, first.id = second.id → first = second

namespace Entry

/-- The pattern with nothing remembered. -/
def afresh (entry : Entry) : Entry := { entry with memo := none }

/-- What is remembered of any of some lines is what a search of it gives. -/
def Honest (lines : List SourceLine) (entry : Entry) : Prop :=
  ∀ memo, entry.memo = some memo → ∀ line ∈ lines, line.id = memo.lineId →
    memo.result = entry.searchAfresh line memo.start

/-- A pattern whose searches may be remembered is steady. -/
def Steady (entry : Entry) : Prop :=
  entry.hasG = false → ∀ searcher, entry.searcher = some searcher → searcher.Steady

/-- A match for a byte that a search of a line gives, made from that byte or
from an earlier one. -/
def Finds (entry : Entry) (line : SourceLine) (pos : Nat) (found : Match) : Prop :=
  ∃ start spans, start ≤ pos ∧ (start = pos ∨ pos ≤ found.start) ∧
    entry.searchAfresh line start = some spans ∧ entry.toMatch spans = some found

theorem Honest.subset (honest : Honest lines entry) (fewer : ∀ line ∈ part, line ∈ lines) :
    Honest part entry :=
  fun memo held line member same => honest memo held line (fewer line member) same

@[simp]
theorem searchAfresh_afresh (entry : Entry) : entry.afresh.searchAfresh = entry.searchAfresh := rfl

@[simp]
theorem toMatch_afresh (entry : Entry) : entry.afresh.toMatch = entry.toMatch := rfl

theorem start_of_toMatch {entry : Entry} (made : entry.toMatch spans = some found) :
    spans.whole = some ⟨found.start, found.stop⟩ ∧ found.spans = spans ∧
      found.target = entry.target := by
  obtain ⟨whole, held, rfl⟩ := Option.map_eq_some_iff.mp made
  exact ⟨held, rfl, rfl⟩

/-- What searching can do: it finds what a search afresh finds, or an earlier
search still answers; and it remembers nothing new, or the search just made. -/
theorem search_cases (entry : Entry) (line : SourceLine) (pos : Nat) :
    ((entry.search line pos).1 = entry.searchAfresh line pos ∧
      ((entry.search line pos).2 = entry ∨
        (entry.search line pos).2 =
          { entry with memo := some ⟨line.id, pos, entry.searchAfresh line pos⟩ })) ∨
    (entry.hasG = false ∧ (entry.search line pos).2 = entry ∧
      ∃ memo, entry.memo = some memo ∧ memo.lineId = line.id ∧ memo.start ≤ pos ∧
        (entry.search line pos).1 = memo.result ∧
        ∀ spans, memo.result = some spans → spans.whole.any (pos ≤ ·.start) = true) := by
  cases compiled : entry.searcher with
  | none =>
    left
    simp [search, searchAfresh, compiled]
  | some searcher =>
    by_cases hasG : entry.hasG = true
    · left
      simp [search, searchAfresh, compiled, hasG]
    cases recalled : entry.remembered? line pos with
    | none =>
      left
      simp [search, searchAfresh, compiled, hasG, recalled]
    | some result =>
      right
      have answer : entry.search line pos = (result, entry) := by
        simp [search, compiled, hasG, recalled]
      obtain ⟨memo, held, answers⟩ := Option.bind_eq_some_iff.mp recalled
      rw [answer]
      split at answers
      next applies =>
        simp only [Bool.and_eq_true, decide_eq_true_eq] at applies
        refine ⟨by simpa using hasG, rfl, memo, held, applies.1, applies.2, ?_⟩
        cases stored : memo.result with
        | none =>
          rw [stored] at answers
          cases answers
          exact ⟨rfl, fun spans absurd => by cases absurd⟩
        | some spans =>
          rw [stored] at answers
          simp only at answers
          split at answers
          next reaches =>
            cases answers
            refine ⟨rfl, fun other same => ?_⟩
            cases same
            exact reaches
          next => cases answers
      next => cases answers

theorem search_afresh (entry : Entry) (line : SourceLine) (pos : Nat) :
    (entry.search line pos).2.afresh = entry.afresh := by
  rcases search_cases entry line pos with ⟨_, same | same⟩ | ⟨_, same, _⟩ <;> rw [same]
  rfl

theorem Honest.search (honest : Honest lines entry) (distinct : Distinct lines)
    (member : line ∈ lines) (pos : Nat) : Honest lines (entry.search line pos).2 := by
  rcases search_cases entry line pos with ⟨_, same | same⟩ | ⟨_, same, _⟩
  · rwa [same]
  · rw [same]
    intro memo held other known id
    cases held
    rw [distinct other known line member id]
    rfl
  · rwa [same]

/-- A memo made by a search is of the line that was searched. -/
theorem search_memo {entry : Entry} {memo : Memo} (held : (entry.search line pos).2.memo = some memo) :
    entry.memo = some memo ∨ memo.lineId = line.id := by
  rcases search_cases entry line pos with ⟨_, same | same⟩ | ⟨_, same, _⟩ <;> rw [same] at held
  · exact .inl held
  · cases held
    exact .inr rfl
  · exact .inl held

theorem Honest.finds (honest : Honest lines entry) (member : line ∈ lines)
    (found : ((entry.search line pos).1.bind entry.toMatch) = some made) :
    entry.Finds line pos made := by
  obtain ⟨spans, searched, matched⟩ := Option.bind_eq_some_iff.mp found
  rcases search_cases entry line pos with ⟨same, _⟩ | ⟨_, _, memo, held, id, le, same, ahead⟩
  · exact ⟨pos, spans, Nat.le_refl _, .inl rfl, same ▸ searched, matched⟩
  · rw [same] at searched
    have reaches := ahead spans searched
    rw [(start_of_toMatch matched).1] at reaches
    refine ⟨memo.start, spans, le, .inr (by simpa using reaches), ?_, matched⟩
    rw [← honest memo held line member id.symm]
    exact searched

/-- With steady patterns a memo answers as the search would. -/
theorem Honest.search_eq (honest : Honest lines entry) (steady : entry.Steady)
    (member : line ∈ lines) (pos : Nat) :
    (entry.search line pos).1 = entry.searchAfresh line pos := by
  rcases search_cases entry line pos with ⟨same, _⟩ | ⟨hasG, _, memo, held, id, le, same, ahead⟩
  · exact same
  have made := honest memo held line member id.symm
  rw [same, made]
  unfold searchAfresh at made ⊢
  cases compiled : entry.searcher with
  | none => rfl
  | some searcher =>
    have lawful := steady hasG searcher compiled
    rw [compiled, Option.bind_some] at made
    simp only [Option.bind_some]
    cases searched : searcher.search line memo.start with
    | none => exact (lawful.nothing line memo.start pos le searched).symm
    | some spans =>
      have reaches := ahead spans (made.trans searched)
      cases whole : spans.whole with
      | none =>
        rw [whole] at reaches
        cases reaches
      | some span =>
        rw [whole] at reaches
        exact (lawful.ahead line memo.start pos spans span le searched whole
          (by simpa using reaches)).symm

end Entry

namespace PatternSet

/-- The first match of a line at or after a byte, every pattern being searched
for from that byte. A match at the byte itself ends the search. -/
def bestAfresh (line : SourceLine) (pos : Nat) (best : Option Match) : List Entry → Option Match
  | [] => best
  | entry :: entries =>
    match ((entry.searchAfresh line pos).bind entry.toMatch).filter (better best) with
    | none => bestAfresh line pos best entries
    | some found =>
      if found.start = pos then some found else bestAfresh line pos (some found) entries

/-- The answer of a set that remembers nothing. -/
def findAfresh (set : PatternSet) (line : SourceLine) (pos : Nat) : Option Match :=
  bestAfresh line pos none set.entries

/-- The answers to one question after the other. -/
def findEach (set : PatternSet) : List (SourceLine × Nat) → List (Option Match)
  | [] => []
  | (line, pos) :: questions =>
    (set.find line pos).1 :: (set.find line pos).2.findEach questions

variable {entries others : List Entry}

theorem findFrom_cons (line : SourceLine) (pos : Nat) (best : Option Match) (entry : Entry)
    (entries : List Entry) :
    findFrom line pos best (entry :: entries) =
      match ((entry.search line pos).1.bind entry.toMatch).filter (better best) with
      | none => ((findFrom line pos best entries).1,
          (entry.search line pos).2 :: (findFrom line pos best entries).2)
      | some found =>
        if found.start = pos then (some found, (entry.search line pos).2 :: entries)
        else ((findFrom line pos (some found) entries).1,
          (entry.search line pos).2 :: (findFrom line pos (some found) entries).2) := rfl

/-- A search changes nothing but what its patterns remember. -/
theorem findFrom_afresh (line : SourceLine) (pos : Nat) (best : Option Match)
    (entries : List Entry) :
    (findFrom line pos best entries).2.map Entry.afresh = entries.map Entry.afresh := by
  induction entries generalizing best with
  | nil => rfl
  | cons entry entries ih =>
    rw [findFrom_cons]
    split
    · rw [List.map_cons, List.map_cons, ih, entry.search_afresh]
    · split
      · rw [List.map_cons, List.map_cons, entry.search_afresh]
      · rw [List.map_cons, List.map_cons, ih, entry.search_afresh]

/-- Every pattern is left as it was, or as its search leaves it. -/
theorem mem_findFrom {best : Option Match} (member : entry ∈ (findFrom line pos best entries).2) :
    entry ∈ entries ∨ ∃ before ∈ entries, entry = (before.search line pos).2 := by
  induction entries generalizing best with
  | nil => cases member
  | cons first entries ih =>
    have later (best : Option Match)
        (member : entry ∈ (first.search line pos).2 :: (findFrom line pos best entries).2) :
        entry ∈ first :: entries ∨ ∃ before ∈ first :: entries, entry = (before.search line pos).2 := by
      rcases List.mem_cons.mp member with rfl | inside
      · exact .inr ⟨first, List.mem_cons_self, rfl⟩
      · rcases ih inside with kept | ⟨before, among, same⟩
        · exact .inl (List.mem_cons_of_mem _ kept)
        · exact .inr ⟨before, List.mem_cons_of_mem _ among, same⟩
    rw [findFrom_cons] at member
    split at member
    · exact later best member
    · split at member
      · rcases List.mem_cons.mp member with rfl | inside
        · exact .inr ⟨first, List.mem_cons_self, rfl⟩
        · exact .inl (List.mem_cons_of_mem _ inside)
      · exact later _ member

theorem findFrom_honest (honest : ∀ entry ∈ entries, Entry.Honest lines entry)
    (distinct : Distinct lines) (member : line ∈ lines) (pos : Nat) (best : Option Match) :
    ∀ entry ∈ (findFrom line pos best entries).2, Entry.Honest lines entry := by
  intro entry left
  rcases mem_findFrom left with kept | ⟨before, among, rfl⟩
  · exact honest entry kept
  · exact (honest before among).search distinct member pos

/-- What is found was found by one of the patterns. -/
theorem findFrom_finds (honest : ∀ entry ∈ entries, Entry.Honest lines entry)
    (member : line ∈ lines) (found : (findFrom line pos best entries).1 = some made) :
    best = some made ∨ ∃ entry ∈ entries, entry.Finds line pos made := by
  induction entries generalizing best with
  | nil => exact .inl found
  | cons first entries ih =>
    have tail (best : Option Match) (found : (findFrom line pos best entries).1 = some made) :
        best = some made ∨ ∃ entry ∈ first :: entries, entry.Finds line pos made := by
      rcases ih (fun entry among => honest entry (List.mem_cons_of_mem _ among)) found
        with same | ⟨entry, among, finds⟩
      · exact .inl same
      · exact .inr ⟨entry, List.mem_cons_of_mem _ among, finds⟩
    have head (seen : Match) (filtered : ((first.search line pos).1.bind first.toMatch).filter
        (better best) = some seen) : first.Finds line pos seen :=
      (honest first List.mem_cons_self).finds member (Option.filter_eq_some_iff.mp filtered).1
    rw [findFrom_cons] at found
    split at found
    · exact tail best found
    next seen filtered =>
      split at found
      · cases found
        exact .inr ⟨first, List.mem_cons_self, head made filtered⟩
      · rcases tail _ found with same | finds
        · cases same
          exact .inr ⟨first, List.mem_cons_self, head made filtered⟩
        · exact .inr finds

/-- With steady patterns a set that remembers answers as one that does not. -/
theorem findFrom_eq (honest : ∀ entry ∈ entries, Entry.Honest lines entry)
    (steady : ∀ entry ∈ entries, entry.Steady) (member : line ∈ lines) (pos : Nat)
    (best : Option Match) :
    (findFrom line pos best entries).1 = bestAfresh line pos best entries := by
  induction entries generalizing best with
  | nil => rfl
  | cons first entries ih =>
    have tail := ih (fun entry among => honest entry (List.mem_cons_of_mem _ among))
      (fun entry among => steady entry (List.mem_cons_of_mem _ among))
    have searched := (honest first List.mem_cons_self).search_eq
      (steady first List.mem_cons_self) member pos
    rw [findFrom_cons, bestAfresh, searched]
    split
    · exact tail best
    · split
      · rfl
      · exact tail _

/-- Sets that are the same but for what they remember find the same afresh. -/
theorem bestAfresh_congr (same : entries.map Entry.afresh = others.map Entry.afresh)
    (line : SourceLine) (pos : Nat) (best : Option Match) :
    bestAfresh line pos best entries = bestAfresh line pos best others := by
  induction entries generalizing others best with
  | nil =>
    cases others with
    | nil => rfl
    | cons other others => cases same
  | cons entry entries ih =>
    cases others with
    | nil => cases same
    | cons other others =>
      rw [List.map_cons, List.map_cons, List.cons.injEq] at same
      have searches : entry.searchAfresh = other.searchAfresh := by
        rw [← entry.searchAfresh_afresh, same.1, other.searchAfresh_afresh]
      have matches' : entry.toMatch = other.toMatch := by
        rw [← entry.toMatch_afresh, same.1, other.toMatch_afresh]
      rw [bestAfresh, bestAfresh, searches, matches']
      split
      · exact ih same.2 _
      · split
        · rfl
        · exact ih same.2 _

/-- Patterns that differ only in what is remembered of them are steady alike. -/
theorem steady_congr (same : entries.map Entry.afresh = others.map Entry.afresh) :
    (∀ entry ∈ entries, entry.Steady) ↔ ∀ entry ∈ others, entry.Steady := by
  have forgetting (entries : List Entry) :
      (∀ entry ∈ entries.map Entry.afresh, entry.Steady) ↔ ∀ entry ∈ entries, entry.Steady :=
    List.forall_mem_map
  rw [← forgetting entries, same, forgetting others]

/-- Whatever was asked before, each answer is the one given afresh. -/
theorem findEach_eq {set : PatternSet} (questions : List (SourceLine × Nat))
    (honest : ∀ entry ∈ set.entries, entry.Honest lines)
    (steady : ∀ entry ∈ set.entries, entry.Steady) (distinct : Distinct lines)
    (among : ∀ question ∈ questions, question.1 ∈ lines) :
    set.findEach questions = questions.map fun question => set.findAfresh question.1 question.2 := by
  induction questions generalizing set with
  | nil => rfl
  | cons question questions ih =>
    obtain ⟨line, pos⟩ := question
    have member : line ∈ lines := among (line, pos) List.mem_cons_self
    have kept := findFrom_afresh line pos none set.entries
    have answer : (set.find line pos).1 = set.findAfresh line pos :=
      findFrom_eq honest steady member pos none
    have steadyLater : ∀ entry ∈ (set.find line pos).2.entries, entry.Steady :=
      (steady_congr kept).mpr steady
    rw [findEach, List.map_cons, answer, ih (findFrom_honest honest distinct member pos none)
      steadyLater fun question later => among question (List.mem_cons_of_mem _ later)]
    congr 1
    apply List.map_congr_left
    intro question _
    exact bestAfresh_congr kept question.1 question.2 none

end PatternSet
end ScopeLexer.Line

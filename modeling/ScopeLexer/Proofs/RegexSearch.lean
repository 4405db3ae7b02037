import Mathlib.Order.Nat
import ScopeLexer.Proofs.EngineLaws

/-!
What a search finds. A program that is tried at a character gives an attempt there, which for many
programs does not depend on where the search started. A search then finds the attempt at the first
character, from the byte where it starts on, at which there is one. The characters that a program needs
make no difference to that: they are only a way to say sooner that nothing will be found. A search of
this kind is steady, and stays inside the line.
-/
namespace ScopeLexer

namespace SourceLine

variable (line : SourceLine)

/-- A character starts at a byte or after it exactly if it is not before the first that does. -/
theorem charFrom_le_iff {byte : Nat} (inside : byte ≤ line.byteSize) (index : Nat) :
    line.charFrom byte ≤ index ↔ byte ≤ line.charToByte index := by
  have least (first : Nat) (starts : byte ≤ line.charToByte first)
      (before : ∀ earlier < first, line.charToByte earlier < byte) :
      first ≤ index ↔ byte ≤ line.charToByte index := by
    constructor
    · exact fun le => Nat.le_trans starts (line.charToByte_mono le)
    · intro reaches
      by_contra behind
      have := before index (by omega)
      omega
  unfold charFrom
  by_cases atEnd : byte = line.byteSize
  · subst atEnd
    have whole := line.byteSize_eq_charToByte
    have ends : line.byteToChar line.byteSize = line.charCount := by
      rw [whole, line.byteToChar_charToByte (Nat.le_refl _)]
    simp only [ends, ← whole, Nat.lt_irrefl, if_false]
    refine least _ (Nat.le_of_eq whole) fun earlier lt => ?_
    rw [whole]
    exact line.charToByte_strictMono lt (Nat.le_refl _)
  · obtain ⟨held, starts, ends⟩ := line.byteToChar_holds (Nat.lt_of_le_of_ne inside atEnd)
    simp only
    split
    next late =>
      refine least _ (Nat.le_of_lt ends) fun earlier lt => ?_
      exact Nat.lt_of_le_of_lt (line.charToByte_mono (Nat.le_of_lt_succ lt)) late
    next here =>
      refine least _ (Nat.le_of_not_lt here) fun earlier lt => ?_
      exact Nat.lt_of_lt_of_le (line.charToByte_strictMono lt (Nat.le_of_lt held)) starts

end SourceLine

namespace Regex

/-- A searcher that finds, from a byte on, the first character of a line at which there is an
attempt. -/
structure Searcher.FindsFirst (searcher : Searcher) (attempt : SourceLine → Nat → Option Spans) :
    Prop where
  starts : ∀ line index spans, attempt line index = some spans → ∃ stop,
    spans.whole = some ⟨line.charToByte index, stop⟩ ∧ line.charToByte index ≤ stop ∧
      stop ≤ line.byteSize
  found : ∀ line byte index spans, index ≤ line.charCount → byte ≤ line.charToByte index →
    attempt line index = some spans →
    (∀ earlier < index, byte ≤ line.charToByte earlier → attempt line earlier = none) →
    searcher.search line byte = some spans
  nothing : ∀ line byte,
    (∀ index ≤ line.charCount, byte ≤ line.charToByte index → attempt line index = none) →
    searcher.search line byte = none

namespace Searcher.FindsFirst

variable {searcher : Searcher} {attempt : SourceLine → Nat → Option Spans}

/-- There is no attempt from a byte on, or there is a first one. -/
theorem cases (finds : searcher.FindsFirst attempt) (line : SourceLine) (byte : Nat) :
    (searcher.search line byte = none ∧
      ∀ index ≤ line.charCount, byte ≤ line.charToByte index → attempt line index = none) ∨
    ∃ index spans, searcher.search line byte = some spans ∧ index ≤ line.charCount ∧
      byte ≤ line.charToByte index ∧ attempt line index = some spans ∧
      ∀ earlier < index, byte ≤ line.charToByte earlier → attempt line earlier = none := by
  by_cases some : ∃ index, index ≤ line.charCount ∧ byte ≤ line.charToByte index ∧
      attempt line index ≠ none
  · classical
    obtain ⟨bound, reaches, there⟩ := Nat.find_spec some
    obtain ⟨spans, attempted⟩ := Option.ne_none_iff_exists'.mp there
    have first : ∀ earlier < Nat.find some, byte ≤ line.charToByte earlier →
        attempt line earlier = none := by
      intro earlier lt reaches
      by_contra there
      exact Nat.find_min some lt ⟨by omega, reaches, there⟩
    exact .inr ⟨_, spans, finds.found line byte _ spans bound reaches attempted first, bound, reaches,
      attempted, first⟩
  · have none : ∀ index ≤ line.charCount, byte ≤ line.charToByte index →
        attempt line index = none := by
      intro index bound reaches
      by_contra there
      exact some ⟨index, bound, reaches, there⟩
    exact .inl ⟨finds.nothing line byte none, none⟩

/-- A searcher that finds the first attempt to succeed stays inside its line. -/
theorem inside (finds : searcher.FindsFirst attempt) : searcher.StaysInside := by
  intro line byte spans whole found held
  obtain ⟨nothing, -⟩ | ⟨index, other, same, -, reaches, attempted, -⟩ := finds.cases line byte
  · rw [nothing] at found
    cases found
  · rw [found] at same
    cases same
    obtain ⟨stop, start, bounds⟩ := finds.starts line index spans attempted
    rw [held] at start
    cases start
    exact ⟨reaches, bounds⟩

/-- A searcher that finds the first attempt to succeed finds the same from every start before
it. -/
theorem steady (finds : searcher.FindsFirst attempt) : searcher.Steady where
  nothing line first later le none := by
    obtain ⟨-, nowhere⟩ | ⟨index, spans, found, -⟩ := finds.cases line first
    · exact finds.nothing line later fun index bound reaches =>
        nowhere index bound (Nat.le_trans le reaches)
    · rw [none] at found
      cases found
  ahead line first later spans whole le found held reaches := by
    obtain ⟨nothing, -⟩ | ⟨index, other, same, bound, -, attempted, earliest⟩ := finds.cases line first
    · rw [nothing] at found
      cases found
    · rw [found] at same
      cases same
      obtain ⟨stop, start, -⟩ := finds.starts line index spans attempted
      rw [held] at start
      cases start
      exact finds.found line later index spans bound reaches attempted fun earlier lt after =>
        earliest earlier lt (Nat.le_trans le after)

end Searcher.FindsFirst
namespace Program

variable {program : Program} {line : SourceLine}

/-- What comes of trying a program at a character of a line. -/
def tryAt (program : Program) (line : SourceLine) (searchStart index : Nat) : Option Spans :=
  let slots : Slots := Array.replicate (program.groups + 1) {}
  match program.step ⟨line, searchStart, line.charCount, program.asksLevels⟩
      { pos := index, held := slots, loose := slots } .found with
  | .found cursor => some (cursor.spans index)
  | _ => none

theorem step_of_callees (none : program.callees = []) :
    program.step = program.expr.run (callStep [] deepestCall) := by
  simp [step, none]

/-- Searching on from a character tries one character after the other. -/
theorem findFrom_eq (program : Program) (line : SourceLine) (searchStart start more : Nat) :
    program.findFrom ⟨line, searchStart, line.charCount, program.asksLevels⟩ start more =
      (List.range' start (more + 1)).findSome? (program.tryAt line searchStart) := by
  induction more generalizing start with
  | zero =>
    unfold findFrom
    dsimp only
    rw [List.range'_succ, List.findSome?_cons, tryAt]
    generalize program.step _ _ _ = outcome
    cases outcome <;> rfl
  | succ more ih =>
    unfold findFrom
    dsimp only
    rw [List.range'_succ, List.findSome?_cons, ← ih, tryAt]
    generalize program.step _ _ _ = outcome
    cases outcome <;> rfl

/-- What a program comes to at each character of a line, wherever the search started. Spans count
characters. -/
structure Tries (program : Program) (attempt : SourceLine → Nat → Option Spans) : Prop where
  tried : ∀ line searchStart index, program.tryAt line searchStart index = attempt line index
  starts : ∀ line index spans, attempt line index = some spans →
    ∃ stop, spans.whole = some ⟨index, stop⟩ ∧ index ≤ stop
  needed : ∀ line index spans, attempt line index = some spans →
    ∀ c ∈ program.needed, ∃ place, index ≤ place ∧ line.chars[place]? = some c

/-- An attempt with its spans in bytes. -/
def inBytes (attempt : SourceLine → Nat → Option Spans) (line : SourceLine) (index : Nat) :
    Option Spans :=
  (attempt line index).map fun spans => spans.map (·.map (·.inBytes line))

variable {attempt : SourceLine → Nat → Option Spans}

/-- A search tries the characters from the first on. It does not where a character that is needed is
missing, as nothing would be found. -/
theorem Tries.search_eq (tries : program.Tries attempt) {line : SourceLine} {byte : Nat}
    (inside : byte ≤ line.byteSize) : program.search line byte =
      (List.range' (line.charFrom byte) (line.charCount - line.charFrom byte + 1)).findSome?
        (inBytes attempt line) := by
  have same : program.tryAt line (line.charFrom byte) = attempt line :=
    funext (tries.tried line (line.charFrom byte))
  simp only [search, if_neg (Nat.not_lt.mpr inside), findFrom_eq, same]
  split
  next missing =>
    symm
    rw [List.findSome?_eq_none_iff]
    intro index member
    simp only [List.mem_range'_1] at member
    simp only [inBytes, Option.map_eq_none_iff]
    by_contra there
    obtain ⟨spans, attempted⟩ := Option.ne_none_iff_exists'.mp there
    have everywhere := tries.needed line index spans attempted
    simp only [Bool.not_eq_true', List.all_eq_false, Array.any_iff_exists] at missing
    obtain ⟨c, needed, missing⟩ := missing
    obtain ⟨place, after, here⟩ := everywhere c needed
    obtain ⟨bound, same⟩ := Array.getElem?_eq_some_iff.mp here
    exact missing ⟨place, bound, by omega, bound, by simpa using same⟩
  next => exact List.map_findSome? ..

/-- A program whose tries are described finds the first of them, in bytes. -/
theorem Tries.findsFirst (tries : program.Tries attempt) :
    Searcher.FindsFirst ⟨program.search⟩ (inBytes attempt) where
  starts line index spans attempted := by
    obtain ⟨chars, tried, rfl⟩ := Option.map_eq_some_iff.mp attempted
    obtain ⟨stop, whole, forward⟩ := tries.starts line index chars tried
    refine ⟨line.charToByte stop, ?_, line.charToByte_mono forward, line.charToByte_le_byteSize _⟩
    simp only [Spans.whole, Array.getElem?_map, Option.join_eq_some_iff] at whole ⊢
    simp [whole, Span.inBytes]
  found line byte index spans bound reaches attempted earliest := by
    have inside := Nat.le_trans reaches (line.charToByte_le_byteSize index)
    have after := (line.charFrom_le_iff inside index).mpr reaches
    obtain ⟨skipped, rfl⟩ := Nat.exists_eq_add_of_le after
    have parts : List.range' (line.charFrom byte) (line.charCount - line.charFrom byte + 1) =
        List.range' (line.charFrom byte) skipped ++ (line.charFrom byte + skipped) ::
          List.range' (line.charFrom byte + skipped + 1)
            (line.charCount - (line.charFrom byte + skipped)) := by
      rw [← List.range'_succ, List.range'_append_1]
      congr 1
      omega
    show program.search line byte = some spans
    rw [tries.search_eq inside, parts, List.findSome?_eq_some_iff]
    refine ⟨_, _, _, rfl, attempted, fun earlier member => ?_⟩
    simp only [List.mem_range'_1] at member
    exact earliest earlier member.2 ((line.charFrom_le_iff inside earlier).mp member.1)
  nothing line byte nowhere := by
    show program.search line byte = none
    by_cases inside : byte ≤ line.byteSize
    · have bound : line.charFrom byte ≤ line.charCount := by
        rwa [line.charFrom_le_iff inside, ← line.byteSize_eq_charToByte]
      rw [tries.search_eq inside, List.findSome?_eq_none_iff]
      intro index member
      simp only [List.mem_range'_1] at member
      exact nowhere index (by omega) ((line.charFrom_le_iff inside index).mp member.1)
    · simp only [search, if_pos (Nat.lt_of_not_le inside)]

end Program

/-- The engine takes what can be read. -/
theorem compile_of_parse {text : String} {program : Program} (read : parse text = .ok program) :
    backtracking.compile text = .ok ⟨program.search⟩ := by
  simp only [backtracking, read]

section Words

variable {line : SourceLine}

theorem Subject.charAt?_eq (searchStart pos : Nat) (keepsTrail : Bool) :
    Subject.charAt? ⟨line, searchStart, line.charCount, keepsTrail⟩ pos = line.text.toList[pos]? := by
  simp only [Subject.charAt?, Subject.char?, line.charCount_eq, line.chars_eq,
    List.getElem?_toArray]
  split
  · rfl
  · next outside => exact (List.getElem?_eq_none (Nat.le_of_not_lt outside)).symm

/-- A word stands at a character if the line goes on with it from there. -/
theorem Subject.after?_eq (searchStart pos : Nat) (keepsTrail : Bool) (word : List Char) :
    Subject.after? ⟨line, searchStart, line.charCount, keepsTrail⟩ pos word =
      if word <+: line.text.toList.drop pos then some (pos + word.length) else none := by
  induction word generalizing pos with
  | nil => simp [Subject.after?]
  | cons c word ih =>
    rw [Subject.after?, Subject.charAt?_eq, ih]
    by_cases inside : pos < line.text.toList.length
    · rw [List.drop_eq_getElem_cons inside, List.getElem?_eq_getElem inside]
      simp only [Option.some.injEq, List.cons_prefix_cons, List.length_cons]
      by_cases here : line.text.toList[pos] = c
      · simp [here, Nat.add_assoc, Nat.add_comm 1]
      · simp [here, Ne.symm here]
    · rw [List.drop_eq_nil_of_le (Nat.le_of_not_lt inside),
        List.getElem?_eq_none (Nat.le_of_not_lt inside)]
      simp

/-- The characters of a word stand one after the other where the line goes on with it. -/
theorem getElem?_of_goesOn {word : List Char} (goesOn : word <+: line.text.toList.drop index)
    (member : c ∈ word) : ∃ place, index ≤ place ∧ line.chars[place]? = some c := by
  obtain ⟨offset, bound, rfl⟩ := List.getElem_of_mem member
  obtain ⟨rest, whole⟩ := goesOn
  refine ⟨index + offset, Nat.le_add_right .., ?_⟩
  rw [line.chars_eq, List.getElem?_toArray, ← List.getElem?_drop, ← whole,
    List.getElem?_append_left bound, List.getElem?_eq_getElem bound]

def Program.ofWord (word : List Char) : Program where
  expr := .text word false
  groups := 0
  needed := word.eraseDups

def wordAt (word : List Char) (line : SourceLine) (index : Nat) : Option Spans :=
  if word <+: line.text.toList.drop index then some #[some ⟨index, index + word.length⟩] else none

/-- The program of a word succeeds where the word stands. -/
theorem Program.tries_ofWord (word : List Char) : (ofWord word).Tries (wordAt word) where
  tried line searchStart index := by
    rw [tryAt, step_of_callees rfl]
    simp only [ofWord, Expr.run, Subject.after?_eq, wordAt]
    by_cases goesOn : word <+: line.text.toList.drop index
    · simp [goesOn, Cursor.moveTo, Cursor.spans]
    · simp [goesOn, Cursor.fail]
  starts line index spans attempted := by
    obtain ⟨-, same⟩ := Option.ite_none_right_eq_some.mp attempted
    cases same
    exact ⟨_, rfl, Nat.le_add_right ..⟩
  needed line index spans attempted c member := by
    obtain ⟨goesOn, -⟩ := Option.ite_none_right_eq_some.mp attempted
    exact getElem?_of_goesOn goesOn (List.mem_eraseDups.mp member)

end Words
end Regex
end ScopeLexer

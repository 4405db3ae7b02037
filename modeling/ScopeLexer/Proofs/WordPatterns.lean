import Mathlib.Data.List.Basic
import ScopeLexer.Proofs.EscapedText

/-!
Patterns of words. The letters, the digits and the underscore of ASCII stand for themselves in a
pattern, so that a word can be put into one as it is. Two patterns are looked at: one for a line that
consists of a text, and one for a word behind a mark. What they find is said once, as what is documented
of an engine. The engine that backtracks finds just that.
-/
namespace ScopeLexer.Pattern

open Regex

/-- A text without backslashes is a pattern as it stands. -/
theorem ofText_plain {text : String} (plain : ∀ c ∈ text.toList, c ≠ '\\') :
    Pattern.ofText text = { source := text } := by
  have kept (chars : List Char) (plain : ∀ c ∈ chars, c ≠ '\\') :
      normalise chars = { chars := chars } := by
    fun_induction normalise chars with
    | case1 => rfl
    | case2 => exact absurd rfl (plain _ List.mem_cons_self)
    | case3 | case4 => exact absurd rfl (plain _ List.mem_cons_self)
    | case5 c rest _ _ draft ih =>
      have same : draft = { chars := rest } :=
        ih fun other later => plain other (List.mem_cons_of_mem c later)
      rw [same]
  rw [Pattern.ofText, kept _ plain, String.ofList_toList]

variable {word : String}

/-- Nothing has to be escaped in a word. -/
theorem escape_word (plain : ∀ c ∈ word.toList, isWordChar true c = true) : escape word = word := by
  have kept : word.toList.flatMap escapeChar = word.toList.flatMap fun c => [c] :=
    List.flatMap_congr fun c member => by
      simp [escapeChar, (wordChar_cases (plain c member)).2.1]
  rw [escape, kept, List.flatMap_singleton', String.ofList_toList]

/-- A word spells itself, as nothing has to be escaped in it. -/
theorem spelled?_word (plain : ∀ c ∈ word.toList, isWordChar true c = true) :
    spelled? word.toList = some word.toList := by
  have spelled := spelled?_escape word
  rwa [escape_word plain] at spelled

end ScopeLexer.Pattern

namespace ScopeLexer.Regex

open Pattern

/-- The text at a character of a line, if a line starts there and ends behind it. -/
def lineAt (text : List Char) (line : SourceLine) (index : Nat) : Option Spans :=
  let chars := line.text.toList
  if (index = 0 ∨ chars[index - 1]? = some '\n') ∧ text <+: chars.drop index ∧
      (index + text.length = chars.length ∨ chars[index + text.length]? = some '\n') then
    some #[some ⟨index, index + text.length⟩]
  else none

/-- How many characters of words there are from a character on. -/
def wordLength (inWord : Char → Bool) (line : SourceLine) (index : Nat) : Nat :=
  ((line.text.toList.drop index).takeWhile inWord).length

/-- The mark at a character of a line, and the word behind it as the first group. -/
def markedAt (inWord : Char → Bool) (mark : List Char) (line : SourceLine) (index : Nat) :
    Option Spans :=
  let first := index + mark.length
  let last := first + wordLength inWord line first
  if mark <+: line.text.toList.drop index ∧ first < last then
    some #[some ⟨index, last⟩, some ⟨first, last⟩]
  else none

/-- What is documented of an engine about words and lines. Which characters beyond ASCII are characters
of words is left to it. -/
structure Engine.ReadsWords (engine : Engine) (inWord : Char → Bool) : Prop where
  ascii : ∀ c : Char, c.toNat < 128 → inWord c = (c.isAlphanum || c = '_')
  marked : ∀ (pattern : String) (mark : List Char), spelled? pattern.toList = some mark → mark ≠ [] →
    ∃ searcher, engine.compile (pattern ++ "(\\w+)") = .ok searcher ∧
      searcher.FindsFirst (Program.inBytes (markedAt inWord mark))
  line : ∀ (pattern : String) (text : List Char), spelled? pattern.toList = some text → text ≠ [] →
    '\n' ∉ text → ∃ searcher, engine.compile ("^" ++ pattern ++ "$") = .ok searcher ∧
      searcher.FindsFirst (Program.inBytes (lineAt text))

theorem Engine.ReadsWords.inWord_of_plain {engine : Engine} {inWord : Char → Bool}
    (reads : engine.ReadsWords inWord) {c : Char} (plain : isWordChar true c = true) :
    inWord c = true := by
  rw [reads.ascii c (toNat_lt_of_wordChar plain)]
  exact plain

section Reading

variable {pattern : String} {text : List Char}

/-- A pattern that spells a text is read as one item, where its first character opens one. -/
theorem readAll_spelled {chars : List Char} (spelled : spelled? chars = some text) (nonempty : text ≠ [])
    {items : List Item}
    (opens : ∀ c, Reader.pushChar { items := items } c =
      { items := ⟨.text [c] false, .chars, none, 0⟩ :: items }) (rest : List Char) :
    Reader.readAll { items := items } (chars ++ rest) =
      Reader.readAll { items := ⟨.text text false, .chars, none, 0⟩ :: items } rest := by
  have shallow : 2 ≤ deepest := by decide
  rw [readsAs_of_spelled spelled _ _ shallow]
  cases text with
  | nil => exact absurd rfl nonempty
  | cons c more =>
    rw [List.foldl_cons, opens, foldl_pushChar { items := items } false, List.singleton_append]

/-- A condition is read as an item of its own. -/
theorem readAll_anchor {items : List Item} {c : Char} {rest : List Char} {anchor : Anchor}
    (stands : ∀ surroundings, readToken surroundings c rest = .ok (.items [.anchor anchor], 0)) :
    Reader.readAll { items := items } (c :: rest) =
      Reader.readAll { items := ⟨.anchor anchor, .single, none, 0⟩ :: items } rest :=
  readAll_char (stands _) rfl

/-- The program that finds a line that consists of a text. -/
def Program.ofLine (text : List Char) : Program where
  expr := .list [.anchor .lineStart, .text text false, .anchor .lineEnd]
  groups := 0
  needed := text.eraseDups

/-- A text between the conditions for the start and the end of a line. -/
theorem parse_line (spelled : spelled? pattern.toList = some text) (nonempty : text ≠ []) :
    parse ("^" ++ pattern ++ "$") = .ok (.ofLine text) := by
  have chars : ("^" ++ pattern ++ "$").toList = '^' :: (pattern.toList ++ ['$']) := by simp
  have read : Reader.readAll {} ('^' :: (pattern.toList ++ ['$'])) =
      .ok { items := [⟨.anchor .lineEnd, .single, none, 0⟩, ⟨.text text false, .chars, none, 0⟩,
        ⟨.anchor .lineStart, .single, none, 0⟩] } := by
    rw [readAll_anchor fun _ => rfl, readAll_spelled spelled nonempty fun _ => rfl,
      readAll_anchor fun _ => rfl, Reader.readAll]
    rfl
  have prepared : Reading.program
      ⟨.list [.anchor .lineStart, .text text false, .anchor .lineEnd], 0, []⟩ =
        .ok { Program.ofLine text with needed := (text ++ []).eraseDups } := rfl
  rw [List.append_nil] at prepared
  rw [parse, readPattern, chars, read]
  exact prepared

/-- The group of the characters of words that come next, at least one. -/
def wordGroup : Expr :=
  .group 1 {} (.many (.word false false) { least := 1, most := none, reluctant := false })

/-- The program that finds a word behind a mark, as its first group. -/
def Program.ofMarked (mark : List Char) : Program where
  expr := .list [.text mark false, wordGroup]
  groups := 1
  needed := mark.eraseDups

/-- A mark before the group of a word. -/
theorem parse_marked (spelled : spelled? pattern.toList = some text) (nonempty : text ≠ []) :
    parse (pattern ++ "(\\w+)") = .ok (.ofMarked text) := by
  have chars : (pattern ++ "(\\w+)").toList = pattern.toList ++ ['(', '\\', 'w', '+', ')'] := by simp
  have read : Reader.readAll {} (pattern.toList ++ ['(', '\\', 'w', '+', ')']) =
      .ok { groups := { count := 1 }
            items := [⟨wordGroup, .single, none, 0⟩, ⟨.text text false, .chars, none, 0⟩] } := by
    rw [readAll_spelled spelled nonempty fun _ => rfl]
    -- Every character but the last of `\w` makes a token of its own.
    iterate 4 refine (readAll_cons rfl rfl).trans ?_
    rw [List.drop_of_length_le (Nat.zero_le _), Reader.readAll]
    rfl
  have prepared : Reading.program ⟨.list [.text text false, wordGroup], 1, []⟩ =
      .ok { Program.ofMarked text with needed := (text ++ []).eraseDups } := rfl
  rw [List.append_nil] at prepared
  rw [parse, readPattern, chars, read]
  exact prepared

end Reading

section Attempts

variable {line : SourceLine}

theorem satisfies_lineStart (searchStart pos : Nat) (keepsTrail : Bool) :
    Subject.satisfies ⟨line, searchStart, line.charCount, keepsTrail⟩ pos .lineStart = true ↔
      pos = 0 ∨ line.text.toList[pos - 1]? = some '\n' ∧ pos ≠ line.text.toList.length := by
  simp [Subject.satisfies, Subject.size, Subject.char?, line.charCount_eq, line.chars_eq]

theorem satisfies_lineEnd (searchStart pos : Nat) (keepsTrail : Bool) :
    Subject.satisfies ⟨line, searchStart, line.charCount, keepsTrail⟩ pos .lineEnd = true ↔
      pos = line.text.toList.length ∨ line.text.toList[pos]? = some '\n' := by
  simp [Subject.satisfies, Subject.size, Subject.char?, line.charCount_eq, line.chars_eq]

/-- Where a text goes on that is not empty, the line is not over. -/
theorem ne_length_of_goesOn {text chars : List Char} {index : Nat} (nonempty : text ≠ [])
    (goesOn : text <+: chars.drop index) : index ≠ chars.length := by
  rintro rfl
  rw [List.drop_length, List.prefix_nil] at goesOn
  exact nonempty goesOn

/-- The program of a line succeeds where the rest of the line is the text. -/
theorem Program.tries_ofLine {text : List Char} (nonempty : text ≠ []) :
    (ofLine text).Tries (lineAt text) where
  tried line searchStart index := by
    rw [tryAt, step_of_callees rfl]
    simp only [ofLine, Expr.run, Expr.runAll, satisfies_lineStart, satisfies_lineEnd,
      Subject.after?_eq, lineAt]
    by_cases goesOn : text <+: line.text.toList.drop index
    · simp only [ne_length_of_goesOn nonempty goesOn, ne_eq, not_false_eq_true, and_true]
      by_cases starts : index = 0 ∨ line.text.toList[index - 1]? = some '\n'
      · by_cases ends : index + text.length = line.text.toList.length ∨
            line.text.toList[index + text.length]? = some '\n'
        · simp [starts, goesOn, ends, Cursor.moveTo, Cursor.spans]
        · simp [starts, goesOn, ends, Cursor.moveTo, Cursor.fail]
      · simp [starts, Cursor.fail]
    · simp [goesOn, Cursor.fail]
  starts line index spans attempted := by
    obtain ⟨-, same⟩ := Option.ite_none_right_eq_some.mp attempted
    cases same
    exact ⟨_, rfl, Nat.le_add_right ..⟩
  needed line index spans attempted c member := by
    obtain ⟨⟨-, goesOn, -⟩, -⟩ := Option.ite_none_right_eq_some.mp attempted
    exact getElem?_of_goesOn goesOn (List.mem_eraseDups.mp member)

/-- A run goes on while characters are taken, up to its limit. -/
theorem runLength_eq (searchStart pos limit : Nat) (keepsTrail : Bool) (takes : Char → Bool) :
    Subject.runLength ⟨line, searchStart, line.charCount, keepsTrail⟩ takes pos limit =
      (((line.text.toList.drop pos).take limit).takeWhile takes).length := by
  induction limit generalizing pos with
  | zero => simp [Subject.runLength]
  | succ limit ih =>
    rw [Subject.runLength, Subject.charAt?_eq, ih]
    by_cases inside : pos < line.text.toList.length
    · rw [List.drop_eq_getElem_cons inside, List.getElem?_eq_getElem inside, List.take_succ_cons,
        List.takeWhile_cons]
      simp only
      split <;> rfl
    · rw [List.drop_eq_nil_of_le (Nat.le_of_not_lt inside),
        List.getElem?_eq_none (Nat.le_of_not_lt inside)]
      rfl

theorem runLength_word (searchStart pos : Nat) (keepsTrail : Bool) :
    Subject.runLength ⟨line, searchStart, line.charCount, keepsTrail⟩ (isWordChar false) pos
      (line.charCount - pos) = wordLength (isWordChar false) line pos := by
  rw [runLength_eq, List.take_of_length_le (by rw [List.length_drop, line.charCount_eq]), wordLength]

/-- As much as possible is taken if what follows never fails. -/
theorem fewer_found (cursor : Cursor) (ends : Cursor → Cursor) (least extra : Nat) :
    fewer cursor (fun next => .found (ends next)) least extra =
      .found (ends (cursor.moveTo (cursor.pos + (least + extra)))) := by
  cases extra <;> rfl

/-- A group takes the characters of words that there are. It fails if there are none. -/
theorem run_wordGroup (call : Nat → Step) (searchStart pos : Nat) :
    wordGroup.run call ⟨line, searchStart, line.charCount, false⟩
        ⟨pos, none, #[{}, {}], #[{}, {}], []⟩ .found =
      let length := wordLength (isWordChar false) line pos
      if 0 < length then
        .found ⟨pos + length, none, #[{}, {}], #[{}, ⟨some pos, some (pos + length)⟩], []⟩
      else .failed #[{}, ⟨some pos, none⟩] := by
  have takes : (fun c => isWordChar false c != false) = isWordChar false := by simp
  simp only [wordGroup, Expr.run, Expr.taken?, takes, repeatChar, groupStep, Option.getD_none,
    Cursor.enter, Cursor.note, Subject.size, Bool.false_eq_true, if_false, runLength_word, fewer_found]
  by_cases word : 0 < wordLength (isWordChar false) line pos
  · simp only [word, if_true, if_neg (Nat.not_lt.mpr word), Nat.add_sub_cancel' word]
    rfl
  · simp only [word, if_false, if_pos (Nat.lt_one_iff.mpr (Nat.eq_zero_of_not_pos word))]
    rfl

/-- The program of a marked word succeeds where the mark stands before a word. -/
theorem Program.tries_ofMarked (mark : List Char) :
    (ofMarked mark).Tries (markedAt (isWordChar false) mark) where
  tried line searchStart index := by
    rw [tryAt, step_of_callees rfl]
    have moved (pos : Nat) : Cursor.moveTo ⟨index, none, Array.replicate (1 + 1) {},
        Array.replicate (1 + 1) {}, []⟩ pos = ⟨pos, none, #[{}, {}], #[{}, {}], []⟩ := rfl
    simp only [ofMarked, Expr.run, Expr.runAll, Subject.after?_eq, markedAt, moved]
    by_cases goesOn : mark <+: line.text.toList.drop index
    · simp only [goesOn, if_true, run_wordGroup, true_and]
      by_cases word : 0 < wordLength (isWordChar false) line (index + mark.length)
      · have start : min index (index + mark.length +
            wordLength (isWordChar false) line (index + mark.length)) = index := by omega
        simp [word, Cursor.spans, start]
      · simp [word]
    · simp [goesOn, Cursor.fail]
  starts line index spans attempted := by
    obtain ⟨-, same⟩ := Option.ite_none_right_eq_some.mp attempted
    cases same
    exact ⟨_, rfl, by omega⟩
  needed line index spans attempted c member := by
    obtain ⟨⟨goesOn, -⟩, -⟩ := Option.ite_none_right_eq_some.mp attempted
    exact getElem?_of_goesOn goesOn (List.mem_eraseDups.mp member)

end Attempts

/-- The engine that backtracks finds words and lines as it is documented. -/
theorem readsWords_backtracking : backtracking.ReadsWords (isWordChar false) where
  ascii c small := by
    have all : ∀ code : Fin 128, isWordChar false (Char.ofNat code) =
        ((Char.ofNat code).isAlphanum || Char.ofNat code = '_') := by decide +kernel
    have here := all ⟨c.toNat, small⟩
    rwa [Char.ofNat_toNat] at here
  marked pattern mark spelled nonempty :=
    ⟨_, compile_of_parse (parse_marked spelled nonempty), (Program.tries_ofMarked mark).findsFirst⟩
  line pattern text spelled nonempty _ :=
    ⟨_, compile_of_parse (parse_line spelled nonempty), (Program.tries_ofLine nonempty).findsFirst⟩

end ScopeLexer.Regex

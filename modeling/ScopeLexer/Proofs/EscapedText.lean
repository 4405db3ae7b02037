import ScopeLexer.Pattern.Basic
import ScopeLexer.Pattern.Backreference
import ScopeLexer.Proofs.RegexSearch
import ScopeLexer.Proofs.SelectorSyntax

/-!
A text that has been escaped stands for itself. A backslash takes away the meaning of the characters that
have one, and of the others none has a meaning, not even where blanks and comments count for nothing. So
what goes over a pattern leaves an escaped text as it is: no anchor is in it and no back-reference. An
engine that reads patterns as it is documented finds the first place where the text stands. The engine that
backtracks reads them so.
-/
namespace ScopeLexer

open Pattern Regex

theorem Regex.toNat_lt_of_wordChar {c : Char} (word : isWordChar true c = true) : c.toNat < 128 := by
  refine Selector.PathName.lt_of_isPlain ?_
  show (isWordChar true c || decide (c = '.')) = true
  rw [word, Bool.true_or]

/-- What the tables say of the ASCII characters of words. -/
theorem Regex.wordChar_cases {c : Char} (word : isWordChar true c = true) :
    isWordChar false c = true ∧ needsEscape c = false ∧
      c ∉ "\\.*+?\x7b|()^$[<\n".toList := by
  have all : ∀ code : Fin 128, isWordChar true (Char.ofNat code) = true →
      isWordChar false (Char.ofNat code) = true ∧ needsEscape (Char.ofNat code) = false ∧
        Char.ofNat code ∉ "\\.*+?\x7b|()^$[<\n".toList := by
    decide +kernel
  have here := all ⟨c.toNat, toNat_lt_of_wordChar word⟩
  rw [Char.ofNat_toNat] at here
  exact here word

namespace Pattern

variable {c : Char}

/-- What may have a meaning behind a backslash is not escaped. -/
theorem isAlphanum_of_needsEscape (escaped : needsEscape c = true) : c.isAlphanum = false := by
  cases letter : c.isAlphanum with
  | false => rfl
  | true =>
    have word : isWordChar true c = true := by rw [isWordChar, if_pos rfl, letter, Bool.true_or]
    rw [(wordChar_cases word).2.1] at escaped
    cases escaped

/-- A character is escaped and has no meaning behind a backslash, or it stands as it is. -/
theorem escapeChar_cases (c : Char) :
    escapeChar c = ['\\', c] ∧ c.isAlphanum = false ∨ escapeChar c = [c] ∧ needsEscape c = false := by
  by_cases escaped : needsEscape c = true
  · exact .inl ⟨by rw [escapeChar, if_pos escaped], isAlphanum_of_needsEscape escaped⟩
  · exact .inr ⟨by rw [escapeChar, if_neg escaped], Bool.eq_false_iff.mpr escaped⟩

theorem toList_escape (text : String) : (escape text).toList = text.toList.flatMap escapeChar := by
  rw [escape, String.toList_ofList]

theorem ne_of_isAlphanum (other : c.isAlphanum = false) (letter : Char)
    (meaning : letter.isAlphanum = true) : c ≠ letter := by
  rintro rfl
  rw [meaning] at other
  cases other

theorem isDigit_of_isAlphanum (other : c.isAlphanum = false) : c.isDigit = false :=
  (Bool.or_eq_false_iff.mp other).2

theorem not_between_of_isAlphanum (other : c.isAlphanum = false) (low high : Char)
    (least : '0' ≤ low) (most : high ≤ '9') : (decide (low ≤ c) && decide (c ≤ high)) = false := by
  refine Bool.eq_false_iff.mpr fun between => ?_
  simp only [Bool.and_eq_true, decide_eq_true_eq] at between
  have digit : c.isDigit = true := by
    simp only [Char.isDigit, Bool.and_eq_true, decide_eq_true_eq]
    exact ⟨UInt32.le_trans least between.1, UInt32.le_trans between.2 most⟩
  rw [isDigit_of_isAlphanum other] at digit
  cases digit

theorem ne_of_needsEscape (plain : needsEscape c = false) : c ≠ '\\' := by
  rintro rfl
  exact absurd plain (by decide)

/-- Normalising finds nothing to change or to note in an escaped text. -/
theorem normalise_escaped (chars : List Char) :
    normalise (chars.flatMap escapeChar) = { chars := chars.flatMap escapeChar } := by
  induction chars with
  | nil => rfl
  | cons c chars ih =>
    rw [List.flatMap_cons]
    obtain ⟨same, other⟩ | ⟨same, plain⟩ := escapeChar_cases c
    · simp only [same, List.cons_append, List.nil_append, normalise, ih,
        if_neg (ne_of_isAlphanum other 'z' rfl), decide_eq_false (ne_of_isAlphanum other 'A' rfl),
        decide_eq_false (ne_of_isAlphanum other 'G' rfl),
        not_between_of_isAlphanum other '1' '9' (by decide) (by decide), Bool.or_false]
    · simp [same, normalise, ih, ne_of_needsEscape plain]

/-- No flavour finds anything to replace in an escaped text. -/
theorem replaceChars_escaped (flavour : Flavour) (chars : List Char) :
    flavour.replaceChars (chars.flatMap escapeChar) = chars.flatMap escapeChar := by
  induction chars with
  | nil => rfl
  | cons c chars ih =>
    rw [List.flatMap_cons]
    obtain ⟨same, other⟩ | ⟨same, plain⟩ := escapeChar_cases c
    · simp [same, Flavour.replaceChars, ih, ne_of_isAlphanum other 'A' rfl,
        ne_of_isAlphanum other 'G' rfl]
    · simp [same, Flavour.replaceChars, ih, ne_of_needsEscape plain]

theorem ofText_escape (text : String) : Pattern.ofText (escape text) = { source := escape text } := by
  rw [Pattern.ofText, toList_escape, normalise_escaped]
  rfl

theorem replaceAnchors_escape (flavour : Flavour) (text : String) :
    flavour.replaceAnchors (escape text) = escape text := by
  rw [replaceAnchors_eq, toList_escape, replaceChars_escaped]
  rfl

end Pattern

namespace Regex

section Syntax

/-- Whether a character may mean something outside classes. Blanks and `#` do where comments are
allowed. -/
def hasMeaning (c : Char) : Bool :=
  ['\\', '|', '(', ')', '[', ']', '\x7b', '\x7d', '.', '*', '+', '?', '^', '$', '#'].contains c ||
    Text.isBlank c

/-- Whether a character stands for itself behind a backslash: a mark of ASCII or a blank. -/
def losesMeaning (c : Char) : Bool :=
  ('!' ≤ c && c ≤ '~' && !c.isAlphanum) || Text.isBlank c

/-- The text that a pattern spells, if all that stands in it stands for itself. -/
def spelled? : List Char → Option (List Char)
  | [] => some []
  | '\\' :: c :: rest => if losesMeaning c then (spelled? rest).map (c :: ·) else none
  | c :: rest => if hasMeaning c then none else (spelled? rest).map (c :: ·)

/-- A pattern that spells a text finds the first place of the text. -/
def Engine.ReadsText (engine : Engine) : Prop :=
  ∀ (pattern : String) (text : List Char), spelled? pattern.toList = some text →
    ∃ searcher, engine.compile pattern = .ok searcher ∧
      searcher.FindsFirst (Program.inBytes (wordAt text))

variable {c : Char}

theorem isAlphanum_of_losesMeaning (loses : losesMeaning c = true) : c.isAlphanum = false := by
  rcases Bool.or_eq_true_iff.mp loses with mark | blank
  · simpa using (Bool.and_eq_true_iff.mp mark).2
  · exact isAlphanum_of_needsEscape (by rw [needsEscape, blank, Bool.or_true])

/-- Every character that has a meaning is escaped. -/
theorem needsEscape_of_hasMeaning (meaning : hasMeaning c = true) : needsEscape c = true := by
  have marks : ['\\', '|', '(', ')', '[', ']', '\x7b', '\x7d', '.', '*', '+', '?', '^', '$',
      '#'].all needsEscape = true := by decide
  rcases Bool.or_eq_true_iff.mp meaning with mark | blank
  · exact List.all_eq_true.mp marks c (List.contains_iff_mem.mp mark)
  · rw [needsEscape, blank, Bool.or_true]

/-- Every character that is escaped stands for itself then. -/
theorem losesMeaning_of_needsEscape (escaped : needsEscape c = true) : losesMeaning c = true := by
  have marks : ['-', '\\', '\x7b', '\x7d', '*', '+', '?', '|', '^', '$', '.', ',', '[', ']', '(', ')',
      '#'].all losesMeaning = true := by decide
  rcases Bool.or_eq_true_iff.mp escaped with mark | blank
  · exact List.all_eq_true.mp marks c (List.contains_iff_mem.mp mark)
  · rw [losesMeaning, blank, Bool.or_true]

theorem spelled?_plain (plain : hasMeaning c = false) (rest : List Char) :
    spelled? (c :: rest) = (spelled? rest).map (c :: ·) := by
  have other : c ≠ '\\' := by
    rintro rfl
    exact absurd plain (by decide)
  cases rest <;> simp [spelled?, plain, other]

/-- An escaped text spells the text. -/
theorem spelled?_escape (text : String) : spelled? (escape text).toList = some text.toList := by
  rw [toList_escape]
  induction text.toList with
  | nil => rfl
  | cons c chars ih =>
    rw [List.flatMap_cons]
    by_cases escaped : needsEscape c = true
    · simp [escapeChar, escaped, spelled?, losesMeaning_of_needsEscape escaped, ih]
    · have plain : hasMeaning c = false :=
        Bool.eq_false_iff.mpr fun meaning => escaped (needsEscape_of_hasMeaning meaning)
      rw [escapeChar, if_neg escaped, List.singleton_append, spelled?_plain plain, ih]
      rfl

end Syntax

section Reading

variable {c : Char}

/-- A token is read before all that follows it. -/
theorem readAll_cons {reader next : Reader} {c : Char} {rest : List Char} {token : Token}
    {width more : Nat} (starts : readToken reader.surroundings c rest = .ok (token, width))
    (step : reader.step token (rest.drop width) = .ok (next, more)) :
    reader.readAll (c :: rest) = next.readAll (rest.drop (width + more)) := by
  rw [Reader.readAll, starts]
  simp only [bind, Except.bind, step]

/-- A token of one character is read before the next character. -/
theorem readAll_char {reader next : Reader} {c : Char} {rest : List Char} {token : Token}
    (starts : readToken reader.surroundings c rest = .ok (token, 0))
    (step : reader.step token rest = .ok (next, 0)) :
    reader.readAll (c :: rest) = next.readAll rest := by
  have read := readAll_cons starts step
  exact read

/-- A character without a meaning stands for itself, whatever is around it. -/
theorem readToken_plain (plain : hasMeaning c = false) (surroundings : Surroundings)
    (rest : List Char) : readToken surroundings c rest = .ok (.char c, 0) := by
  have other (mark : Char) (meaning : hasMeaning mark = true) : c ≠ mark := by
    rintro rfl
    rw [meaning] at plain
    cases plain
  have comment : c ≠ '#' := other '#' (by decide)
  have blank : " \t\n\r\x0c".toList.contains c = false := by
    have blanks : " \t\n\r\x0c".toList.all hasMeaning = true := by decide
    refine Bool.eq_false_iff.mpr fun member => ?_
    exact other c (List.all_eq_true.mp blanks c (List.contains_iff_mem.mp member)) rfl
  unfold readToken
  obtain ⟨greed, width⟩ := readGreed true rest
  dsimp only
  split
  all_goals first
    | exact absurd rfl (other _ (by decide))
    | simp only [comment, blank, decide_false, Bool.and_false, Bool.false_eq_true, if_false]

theorem escapedClass?_of_isAlphanum (other : c.isAlphanum = false) : escapedClass? c = none := by
  unfold escapedClass?
  split
  all_goals first
    | rfl
    | exact absurd other (by decide)

/-- The tables of the letters that have a meaning behind a backslash hold letters only. -/
theorem tables_of_isAlphanum (other : c.isAlphanum = false) (options : Options) :
    options.escapedExpr? c = none ∧ controlChar? c = none := by
  have noAnchor : options.escapedAnchor? c = none := by
    unfold Options.escapedAnchor?
    split
    all_goals first
      | rfl
      | exact absurd other (by decide)
  constructor
  · unfold Options.escapedExpr?
    split
    all_goals first
      | exact absurd other (by decide)
      | rw [escapedClass?_of_isAlphanum other, noAnchor]
  · unfold controlChar?
    split
    all_goals first
      | rfl
      | exact absurd other (by decide)

/-- An alphanumeric character among escaped codes stands for itself. -/
theorem readEscapedCodes_of_isAlphanum (other : c.isAlphanum = false) (rest : List Char) :
    readEscapedCodes (c :: rest) = .ok ([.point c.toNat], 1) := by
  have letter := ne_of_isAlphanum other
  have digit : isOctalDigit c = false :=
    not_between_of_isAlphanum other '0' '7' (by decide) (by decide)
  have byte : readByte? (c :: rest) = none := by
    simp [readByte?, letter 'x' rfl, digit]
  have control : readControl (c :: rest) = .ok (c.toNat, 1) := by
    simp [readControl, letter 'M' rfl, letter 'C' rfl, letter 'c' rfl,
      (tables_of_isAlphanum other {}).2]
  simp [readEscapedCodes, readCode, letter 'x' rfl, letter 'o' rfl, letter 'u' rfl, byte, control,
    bind, Except.bind, pure, Except.pure]

/-- Only two letters start the name of a property. -/
theorem readProperty_of_ne (lower : c ≠ 'p') (upper : c ≠ 'P') (rest : List Char) :
    readProperty c rest = .ok none := by
  unfold readProperty
  split
  · rw [if_pos (by simp [lower, upper])]
  · rfl

/-- Behind a backslash a character without a meaning of its own stands for itself. -/
theorem readToken_escaped (other : c.isAlphanum = false) (surroundings : Surroundings)
    (rest : List Char) : readToken surroundings '\\' (c :: rest) = .ok (.char c, 1) := by
  have property : readProperty c rest = .ok none :=
    readProperty_of_ne (ne_of_isAlphanum other 'p' rfl) (ne_of_isAlphanum other 'P' rfl) rest
  show readEscape surroundings (c :: rest) = _
  simp [readEscape, (tables_of_isAlphanum other surroundings.options).1, ne_of_isAlphanum other 'k' rfl,
    ne_of_isAlphanum other 'g' rfl, isDigit_of_isAlphanum other, property,
    readEscapedCodes_of_isAlphanum other, bind, Except.bind, pure, Except.pure]

/-- Some characters of a pattern are read as the characters of a text, one after the other, whatever has
been read before and whatever follows. -/
def ReadsAs (chars text : List Char) : Prop :=
  ∀ (reader : Reader) (rest : List Char), reader.depth ≤ deepest →
    reader.readAll (chars ++ rest) = (text.foldl Reader.pushChar reader).readAll rest

theorem depth_pushChar (reader : Reader) (c : Char) : (reader.pushChar c).depth = reader.depth := rfl

theorem step_char {reader : Reader} (shallow : reader.depth ≤ deepest) (c : Char)
    (rest : List Char) : reader.step (.char c) rest = .ok (reader.pushChar c, 0) := by
  simp only [Reader.step, if_neg (Nat.not_lt.mpr shallow)]

/-- One character is read before the others. -/
theorem ReadsAs.cons (written : List Char) {chars text : List Char}
    (first : ∀ (reader : Reader) (rest : List Char), reader.depth ≤ deepest →
      reader.readAll (written ++ rest) = (reader.pushChar c).readAll rest)
    (others : ReadsAs chars text) : ReadsAs (written ++ chars) (c :: text) := by
  intro reader rest shallow
  rw [List.append_assoc, first reader _ shallow]
  exact others _ rest (by rwa [depth_pushChar])

/-- A pattern is read as the text that it spells. -/
theorem readsAs_of_spelled {chars text : List Char} (spelled : spelled? chars = some text) :
    ReadsAs chars text := by
  fun_induction spelled? chars generalizing text with
  | case1 =>
    cases spelled
    exact fun _ _ _ => rfl
  | case2 c rest loses ih =>
    obtain ⟨text, others, rfl⟩ := Option.map_eq_some_iff.mp spelled
    refine ReadsAs.cons ['\\', c] (fun reader rest shallow => ?_) (ih others)
    exact readAll_cons (readToken_escaped (isAlphanum_of_losesMeaning loses) _ rest)
      (step_char shallow c _)
  | case3 => cases spelled
  | case4 => cases spelled
  | case5 c rest _ plain ih =>
    obtain ⟨text, others, rfl⟩ := Option.map_eq_some_iff.mp spelled
    refine ReadsAs.cons [c] (fun reader rest shallow => ?_) (ih others)
    exact readAll_char (readToken_plain (Bool.eq_false_iff.mpr plain) _ rest) (step_char shallow c _)

/-- Characters in a row are one item. -/
theorem foldl_pushChar (reader : Reader) (ignoreCase : Bool) (chars more : List Char)
    (items : List Item) :
    more.foldl Reader.pushChar { reader with items := ⟨.text chars ignoreCase, .chars, none, 0⟩ :: items } =
      { reader with items := ⟨.text (chars ++ more) ignoreCase, .chars, none, 0⟩ :: items } := by
  induction more generalizing chars with
  | nil => rw [List.append_nil, List.foldl_nil]
  | cons c more ih =>
    rw [List.foldl_cons]
    refine (ih (chars ++ [c])).trans ?_
    rw [List.append_assoc, List.singleton_append]

/-- A pattern that is read as a text is the program that finds it. -/
theorem parse_of_readsAs {chars text : List Char} (reads : ReadsAs chars text) :
    parse (String.ofList chars) = .ok (.ofWord text) := by
  have read := reads {} [] (by decide)
  rw [List.append_nil] at read
  rw [parse, readPattern, String.toList_ofList, read]
  cases text with
  | nil =>
    rw [List.foldl_nil, Reader.readAll]
    rfl
  | cons c text =>
    have whole : text.foldl Reader.pushChar (Reader.pushChar {} c) =
        { items := [⟨.text (c :: text) false, .chars, none, 0⟩] } := foldl_pushChar {} false [c] text []
    rw [List.foldl_cons, whole, Reader.readAll]
    rfl

/-- The engine that backtracks reads patterns as it is documented. -/
theorem readsText_backtracking : backtracking.ReadsText := by
  intro pattern text spelled
  have read := parse_of_readsAs (readsAs_of_spelled spelled)
  rw [String.ofList_toList] at read
  exact ⟨_, compile_of_parse read, (Program.tries_ofWord text).findsFirst⟩

end Reading

section Searching

variable {searcher : Searcher} {word : List Char} {line : SourceLine} {byte index : Nat}
  {spans : Spans}

/-- A word stands at a character of a line, or at its end. -/
def StandsAt (word : List Char) (line : SourceLine) (index : Nat) : Prop :=
  index ≤ line.charCount ∧ word <+: line.text.toList.drop index

/-- The first place of a word in a line, from a byte on. -/
structure FirstFrom (word : List Char) (line : SourceLine) (byte index : Nat) : Prop where
  stands : StandsAt word line index
  reaches : byte ≤ line.charToByte index
  first : ∀ earlier < index, byte ≤ line.charToByte earlier → ¬ StandsAt word line earlier

theorem inBytes_wordAt_iff : Program.inBytes (wordAt word) line index = some spans ↔
    word <+: line.text.toList.drop index ∧
      spans = #[some ⟨line.charToByte index, line.charToByte (index + word.length)⟩] := by
  simp only [Program.inBytes, wordAt, Option.map_eq_some_iff, Option.ite_none_right_eq_some]
  constructor
  · rintro ⟨chars, ⟨goesOn, same⟩, rfl⟩
    cases same
    simp [goesOn, Span.inBytes]
  · rintro ⟨goesOn, rfl⟩
    exact ⟨_, ⟨goesOn, rfl⟩, by simp [Span.inBytes]⟩

theorem inBytes_wordAt_eq_none_iff : Program.inBytes (wordAt word) line index = none ↔
    ¬ word <+: line.text.toList.drop index := by
  rw [Option.eq_none_iff_forall_ne_some]
  simp only [ne_eq, inBytes_wordAt_iff, not_and]
  exact ⟨fun nothing goesOn => nothing _ goesOn rfl, fun nowhere _ goesOn => absurd goesOn nowhere⟩

/-- What finds a word finds its first place. -/
theorem search_eq_some_iff (finds : searcher.FindsFirst (Program.inBytes (wordAt word))) :
    searcher.search line byte = some spans ↔ ∃ index, FirstFrom word line byte index ∧
      spans = #[some ⟨line.charToByte index, line.charToByte (index + word.length)⟩] := by
  constructor
  · intro found
    obtain ⟨nothing, -⟩ | ⟨index, other, same, bound, reaches, attempted, first⟩ :=
      finds.cases line byte
    · rw [found] at nothing
      cases nothing
    · rw [found] at same
      cases same
      obtain ⟨goesOn, rfl⟩ := inBytes_wordAt_iff.mp attempted
      refine ⟨index, ⟨⟨bound, goesOn⟩, reaches, fun earlier before after stands => ?_⟩, rfl⟩
      exact inBytes_wordAt_eq_none_iff.mp (first earlier before after) stands.2
  · rintro ⟨index, ⟨⟨bound, goesOn⟩, reaches, first⟩, rfl⟩
    refine finds.found line byte index _ bound reaches (inBytes_wordAt_iff.mpr ⟨goesOn, rfl⟩) ?_
    intro earlier before after
    exact inBytes_wordAt_eq_none_iff.mpr fun there => first earlier before after ⟨by omega, there⟩

/-- What finds a word finds nothing only where the word does not stand. -/
theorem search_eq_none_iff (finds : searcher.FindsFirst (Program.inBytes (wordAt word))) :
    searcher.search line byte = none ↔
      ∀ index, byte ≤ line.charToByte index → ¬ StandsAt word line index := by
  constructor
  · intro nothing index reaches stands
    obtain ⟨-, nowhere⟩ | ⟨-, spans, found, -⟩ := finds.cases line byte
    · exact inBytes_wordAt_eq_none_iff.mp (nowhere index stands.1 reaches) stands.2
    · rw [nothing] at found
      cases found
  · intro nowhere
    refine finds.nothing line byte fun index bound reaches => ?_
    exact inBytes_wordAt_eq_none_iff.mpr fun there => nowhere index reaches ⟨bound, there⟩

end Searching
end Regex

namespace Pattern

/-- An escaped text compiles to the same in every flavour. -/
theorem compiled_escape {engine : Engine} {text : String} {searcher : Searcher}
    (compiles : engine.compile (escape text) = .ok searcher) (flavour : Flavour) (journal : Journal) :
    ((CachedPattern.ofText (escape text)).compiled engine flavour journal).1 = some searcher := by
  have one : (CachedPattern.ofText (escape text)).slotFlavour flavour = .both := by
    simp [CachedPattern.ofText, CachedPattern.slotFlavour, ofText_escape, hasAnchors]
  simp only [CachedPattern.compiled, one]
  simp only [CachedPattern.ofText, CachedPattern.slot, ofText_escape, replaceAnchors_escape, compiles]

/-- An escaped text is a pattern as it stands, without anchors and back-references and the same in all
flavours. Outside classes it spells the characters of the text. An engine that reads patterns as it is
documented takes it, and finds it at the first place of the text from where a search starts. -/
theorem escaped_text_is_literal {engine : Engine} (reads : engine.ReadsText) (text : String) :
    Pattern.ofText (escape text) = { source := escape text } ∧
      (∀ flavour : Flavour, flavour.replaceAnchors (escape text) = escape text) ∧
      spelled? (escape text).toList = some text.toList ∧
      ∃ searcher : Searcher,
        (∀ flavour journal, ((CachedPattern.ofText (escape text)).compiled engine flavour
          journal).1 = some searcher) ∧
        ∀ line byte,
          (∀ spans, searcher.search line byte = some spans ↔
            ∃ index, FirstFrom text.toList line byte index ∧
              spans = #[some ⟨line.charToByte index,
                line.charToByte (index + text.toList.length)⟩]) ∧
          (searcher.search line byte = none ↔
            ∀ index, byte ≤ line.charToByte index → ¬ StandsAt text.toList line index) := by
  have spelled := spelled?_escape text
  obtain ⟨searcher, compiles, finds⟩ := reads (escape text) text.toList spelled
  exact ⟨ofText_escape text, fun flavour => replaceAnchors_escape flavour text, spelled, searcher,
    compiled_escape compiles,
    fun line byte => ⟨fun spans => search_eq_some_iff finds, search_eq_none_iff finds⟩⟩

/-- A text that would mean something else: a backslash, a letter that makes an anchor of it, and a star. -/
theorem escaped_text_is_literal_backtracking :
    let text := "\\A*"
    backtracking.ReadsText ∧ escape text = "\\\\A\\*" ∧
      Pattern.ofText (escape text) = { source := escape text } ∧
      ∃ searcher : Searcher,
        ((CachedPattern.ofText (escape text)).compiled backtracking .neither {}).1 = some searcher ∧
        searcher.search (SourceLine.ofText 0 "\\A\\A**") 0 = some #[some ⟨2, 5⟩] := by
  intro text
  obtain ⟨same, -, -, searcher, compiles, finds⟩ := escaped_text_is_literal readsText_backtracking text
  refine ⟨readsText_backtracking, by decide, same, searcher, compiles .neither {}, ?_⟩
  have nowhere : ∀ earlier < 2, ¬ text.toList <+: "\\A\\A**".toList.drop earlier := by decide
  refine ((finds (SourceLine.ofText 0 "\\A\\A**") 0).1 _).mpr ⟨2, ?_, by decide +kernel⟩
  exact ⟨⟨by decide +kernel, by decide +kernel⟩, Nat.zero_le _,
    fun earlier before _ there => nowhere earlier before there.2⟩

end Pattern
end ScopeLexer

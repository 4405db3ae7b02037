import ScopeLexer.Proofs.ContenderScan
import ScopeLexer.Proofs.InjectionTransparency
import ScopeLexer.Proofs.RegionGrammars
import ScopeLexer.Proofs.WordPatterns

/-!
Regions that end at a word of their own. A grammar whose only rule is a region that starts with a word
behind `<<`, and ends at a line that is this word, keeps the word in its states: the end refers back to
what the start has captured, and is resolved when the region is entered. So the depth of a state says
whether the line with the word has come.
-/
namespace ScopeLexer

open Grammar Pattern Regex

/-- The text between two characters. -/
theorem SourceLine.slice?_charToByte (line : SourceLine) {first last : Nat} (le : first ≤ last)
    (bound : last ≤ line.charCount) : line.slice? (line.charToByte first) (line.charToByte last) =
      some (String.ofList ((line.text.toList.drop first).take (last - first))) := by
  simp only [slice?, line.byteToChar_charToByte (Nat.le_trans le bound),
    line.byteToChar_charToByte bound, line.charToByte_mono le, decide_true, Bool.and_self, if_true,
    line.chars_eq, List.extract_toArray, List.extract_eq_take_drop]

namespace Heredoc

def source (scopeName : String) (name contentName : Option String) : GrammarSource where
  scopeName := scopeName
  patterns := [0]
  rules := #[{ name := name
               contentName := contentName
               beginPattern := some "<<(\\w+)"
               endPattern := some "^\\1$" }]

-- A document of the grammar.
example : (GrammarSource.ofText ("\x7b\"scopeName\": \"source.x\", \"patterns\": [\x7b" ++
    "\"begin\": \"<<(\\\\w+)\", \"end\": \"^\\\\1$\"\x7d]\x7d")).toOption ==
      some (source "source.x" none none) := by
  decide +kernel

def grammar (scopeName : String) (name contentName : Option String) : CompiledGrammar :=
  regionGrammar scopeName name contentName "<<(\\w+)" "^\\1$" []

theorem ofText_start : Pattern.ofText "<<(\\w+)" = { source := "<<(\\w+)" } := by decide +kernel

theorem ofText_stop : Pattern.ofText "^\\1$" = { source := "^\\1$", hasReferences := true } := by
  decide +kernel

variable {engine : Engine} {inWord : Char → Bool}

/-- The start of the region finds the words behind `<<`. -/
theorem compile_start (reads : engine.ReadsWords inWord) :
    ∃ searcher, engine.compile "<<(\\w+)" = .ok searcher ∧
      searcher.FindsFirst (Program.inBytes (markedAt inWord ['<', '<'])) :=
  reads.marked "<<" ['<', '<'] (by decide) (by simp)

/-- Under any engine that reads words the grammar compiles, and to the rules that it is shown
with. -/
theorem compiles (reads : engine.ReadsWords inWord) (scopeName : String)
    (name contentName : Option String) (journal : Journal) :
    ∃ patterns, (compile scopeName ⟨[(scopeName, source scopeName name contentName)]⟩ [] engine
      journal).1 = .ok ⟨grammar scopeName name contentName, patterns⟩ := by
  obtain ⟨searcher, takes, -⟩ := compile_start reads
  have one : OneRegion (source scopeName name contentName) 0 name contentName "<<(\\w+)" "^\\1$" none
      engine := {
    uninjected := rfl
    tried := rfl
    written := rfl
    recurs := by simp
    takesStart := ⟨searcher, by rw [ofText_start]; exact takes⟩
    takesStop := .inl (by rw [ofText_stop]) }
  exact one.compiles journal

/-- A word that a region can end at: letters, digits and underscores of ASCII, at least one. -/
structure IsWord (word : String) : Prop where
  nonempty : word ≠ ""
  plain : ∀ c ∈ word.toList, isWordChar true c = true

/-- The end of a region that was started with a word. -/
def ending (word : String) : String := "^" ++ word ++ "$"

/-- The frames outside the region. -/
def outside : List (Nat × RuleId × Option String) := [(1, 0, none)]

/-- The frames in a region that was started with a word. -/
def inside (word : String) : List (Nat × RuleId × Option String) :=
  (2, 1, some (ending word)) :: outside

/-- What is attempted for the region to be left and to be entered. -/
def attempts (inWord : Char → Bool) (word : String) : Line.Target → SourceLine → Nat → Option Spans
  | .leave => Program.inBytes (lineAt word.toList)
  | .enter _ => Program.inBytes (markedAt inWord ['<', '<'])

/-- The end made from a word is a pattern of its own text, without anchors or references. -/
theorem ofText_ending {word : String} (isWord : IsWord word) :
    Pattern.ofText (ending word) = { source := ending word } := by
  apply ofText_plain
  intro c member
  simp only [ending, String.toList_append, List.mem_append] at member
  rcases member with (first | inner) | last
  · cases List.mem_singleton.mp first
    decide
  · rintro rfl
    exact absurd (by decide) (wordChar_cases (isWord.plain _ inner)).2.2
  · cases List.mem_singleton.mp last
    decide

theorem free_word {word : String} (isWord : IsWord word) : '\n' ∉ word.toList := fun member =>
  absurd (by decide) (wordChar_cases (isWord.plain _ member)).2.2

/-- The end of a region finds the lines that are its word. -/
theorem compile_ending (reads : engine.ReadsWords inWord) {word : String} (isWord : IsWord word) :
    ∃ searcher, engine.compile (ending word) = .ok searcher ∧
      searcher.FindsFirst (Program.inBytes (lineAt word.toList)) :=
  reads.line word word.toList (spelled?_word isWord.plain)
    (fun empty => isWord.nonempty (String.toList_eq_nil_iff.mp empty)) (free_word isWord)

def opening : Line.Contender := ⟨.enter 1, { source := "<<(\\w+)" }⟩

/-- The end of a region that was started with a word. -/
def closing (word : String) : Line.Contender := ⟨.leave, { source := ending word }⟩

section Contenders

variable {scopeName : String} {name contentName : Option String} {word : String}
  {cursor : Line.Cursor}

theorem contenders_outside (outline : cursor.stack.outline = outside) :
    cursor.contenders (grammar scopeName name contentName) = [opening] := by
  obtain ⟨-, rule, ending⟩ := Stack.top_of_outline outline
  rw [Line.Cursor.contenders, rule, ending, grammar, ruleContenders_top, ofText_start, opening]

theorem contenders_inside (isWord : IsWord word) (outline : cursor.stack.outline = inside word) :
    cursor.contenders (grammar scopeName name contentName) = [closing word] := by
  obtain ⟨-, rule, ending⟩ := Stack.top_of_outline outline
  rw [Line.Cursor.contenders, rule, ending]
  simp [Line.ruleContenders, CompiledGrammar.candidates, CompiledGrammar.flatten,
    CompiledGrammar.rule, Line.startContender, Line.endContender, Rule.patterns, Rule.entryPattern,
    grammar, regionGrammar, loneRegion, closing, ofText_stop, ofText_ending isWord]

theorem attempted_outside (reads : engine.ReadsWords inWord) (word : String) (flavour : Flavour) :
    Line.Attempted engine flavour (attempts inWord word) [opening] := by
  obtain ⟨searcher, takes, finds⟩ := compile_start reads
  have starts : opening.pattern.searcher engine flavour = some searcher :=
    searcher_of_compile takes flavour
  simpa [Line.Attempted] using ⟨searcher, starts, finds⟩

theorem attempted_inside (reads : engine.ReadsWords inWord) (isWord : IsWord word)
    (flavour : Flavour) :
    Line.Attempted engine flavour (attempts inWord word) [closing word] := by
  obtain ⟨searcher, takes, finds⟩ := compile_ending reads isWord
  have ends : (closing word).pattern.searcher engine flavour = some searcher :=
    searcher_of_compile takes flavour
  simpa [Line.Attempted] using ⟨searcher, ends, finds⟩

end Contenders

/-- The end is resolved to the word that the start has captured. -/
theorem resolve_stop {word : String} (isWord : IsWord word) {line : SourceLine} {spans : Spans}
    (groups : 1 < spans.size) (captured : captured? line spans 1 = some word) :
    (resolve "^\\1$" line spans).1 = ending word := by
  have parts : templateParts "^\\1$".toList = [.char '^', .reference ['1'], .char '$'] := by
    decide +kernel
  have number : groupNumber? ['1'] = some 1 := by decide +kernel
  have all : ¬([.char '^', .reference ['1'], .char '$'].any fun part =>
      TemplatePart.outOfRange spans part) = true := by
    simp [TemplatePart.outOfRange, number, groups]
  rw [resolve, parts, if_neg all]
  simp [TemplatePart.resolve, number, captured, escape_word isWord.plain, ending, String.join]

section Lines

variable {word text : String} (isWord : IsWord word)

theorem toList_start (word : String) : (Tokenizer.lineOf ("<<" ++ word)).text.toList =
    '<' :: '<' :: (word.toList ++ ['\n']) := by
  simp [Tokenizer.toList_lineOf]

/-- The line end is where the text is over. -/
theorem newline_iff {chars : List Char} (free : '\n' ∉ chars) {index : Nat} :
    (chars ++ ['\n'])[index]? = some '\n' ↔ index = chars.length := by
  constructor
  · intro held
    by_contra apart
    by_cases before : index < chars.length
    · rw [List.getElem?_append_left before] at held
      exact free (List.mem_of_getElem? held)
    · rw [List.getElem?_eq_none (by simp; omega)] at held
      cases held
  · rintro rfl
    simp

include isWord

theorem length_pos : 0 < word.toList.length := by
  rw [List.length_pos_iff, ne_eq, String.toList_eq_nil_iff]
  exact isWord.nonempty

/-- On a line without further line ends the word is found if it is all of the line. -/
theorem lineAt_lineOf (free : '\n' ∉ text.toList) (index : Nat) :
    lineAt word.toList (Tokenizer.lineOf text) index =
      if index = 0 ∧ text = word then some #[some ⟨0, word.toList.length⟩] else none := by
  have nonempty : word.toList ≠ [] := List.length_pos_iff.mp (length_pos isWord)
  rw [lineAt, Tokenizer.toList_lineOf]
  by_cases whole : index = 0 ∧ text = word
  · obtain ⟨rfl, rfl⟩ := whole
    simp
  · rw [if_neg whole, if_neg]
    rintro ⟨starts, goesOn, ends⟩
    rw [newline_iff free] at starts ends
    obtain rfl : index = 0 := by
      have here := ne_length_of_goesOn nonempty goesOn
      rw [List.length_append, List.length_singleton] at here
      omega
    refine whole ⟨rfl, ?_⟩
    rw [Nat.zero_add] at ends
    rw [List.drop_zero] at goesOn
    -- Up to the very end it would hold the line end, which no word does.
    rcases ends with past | same
    · have all := goesOn.eq_of_length (by simpa using past)
      exact absurd (all ▸ by simp) (free_word isWord)
    · have all := List.prefix_of_prefix_length_le goesOn (List.prefix_append _ _) (Nat.le_of_eq same)
      exact (String.toList_inj.mp (all.eq_of_length same)).symm

/-- The start is found on its own line, with the word as its group. -/
theorem markedAt_start (reads : engine.ReadsWords inWord) :
    markedAt inWord ['<', '<'] (Tokenizer.lineOf ("<<" ++ word)) 0 = some #[some ⟨0, 2 + word.toList.length⟩, some ⟨2, 2 + word.toList.length⟩] := by
  have length : wordLength inWord (Tokenizer.lineOf ("<<" ++ word)) 2 = word.toList.length := by
    have all : ∀ c ∈ word.toList, inWord c = true := fun c member =>
      reads.inWord_of_plain (isWord.plain c member)
    have stops : inWord '\n' = false := reads.ascii '\n' (by decide)
    rw [wordLength, toList_start word, List.drop_succ_cons, List.drop_succ_cons, List.drop_zero,
      List.takeWhile_append_of_pos all, List.takeWhile_cons_of_neg (by simp [stops]), List.append_nil]
  have marked : ['<', '<'] <+: '<' :: '<' :: (word.toList ++ ['\n']) := ⟨_, rfl⟩
  simp [markedAt, toList_start word, length, length_pos isWord, marked]

/-- There is no start in a word. -/
theorem markedAt_word (index : Nat) :
    markedAt inWord ['<', '<'] (Tokenizer.lineOf word) index = none := by
  rw [markedAt, Tokenizer.toList_lineOf, if_neg]
  rintro ⟨goesOn, -⟩
  have member : '<' ∈ word.toList ++ ['\n'] :=
    List.mem_of_mem_drop (goesOn.subset List.mem_cons_self)
  rcases List.mem_append.mp member with inner | last
  · exact absurd (by decide) (wordChar_cases (isWord.plain _ inner)).2.2
  · cases List.mem_singleton.mp last

end Lines

section Scan

variable {word text : String} (isWord : IsWord word) {found : Line.Match} {index : Nat}

include isWord

theorem attempt_start (reads : engine.ReadsWords inWord) :
    let line := Tokenizer.lineOf ("<<" ++ word)
    attempts inWord word (.enter 1) line 0 = some
      #[some ⟨0, line.charToByte (2 + word.toList.length)⟩,
        some ⟨line.charToByte 2, line.charToByte (2 + word.toList.length)⟩] := by
  simp [attempts, Program.inBytes, markedAt_start isWord reads, Span.inBytes, SourceLine.charToByte_zero]

/-- The first attempt on the line of the start is the start. -/
theorem first_start (reads : engine.ReadsWords inWord)
    (first : Line.FirstAttempt (attempts inWord word) [opening] (Tokenizer.lineOf ("<<" ++ word)) 0 found index) :
    let line := Tokenizer.lineOf ("<<" ++ word)
    found.target = .enter 1 ∧ found.stop = line.charToByte (2 + word.toList.length) ∧
      found.spans = #[some ⟨0, found.stop⟩, some ⟨line.charToByte 2, found.stop⟩] := by
  intro line
  obtain ⟨contender, member, target⟩ := first.contends
  cases List.mem_singleton.mp member
  obtain rfl : index = 0 := by
    by_contra later
    have none := first.first opening List.mem_cons_self 0 (Nat.pos_of_ne_zero later) (Nat.zero_le _)
    cases none.symm.trans (attempt_start isWord reads)
  have tried := first.attempted
  rw [← target] at tried
  have spans := Option.some.inj (tried.symm.trans (attempt_start isWord reads))
  have whole := first.whole
  rw [spans] at whole
  have stop : found.stop = line.charToByte (2 + word.toList.length) := by
    simpa [Spans.whole] using whole.symm
  refine ⟨target.symm, stop, ?_⟩
  rw [spans, stop]

/-- The only attempt to end the region takes a line that is the word. -/
theorem first_end (free : '\n' ∉ text.toList) {pos : Nat}
    (first : Line.FirstAttempt (attempts inWord word) [closing word] (Tokenizer.lineOf text) pos found index) :
    text = word ∧ found.target = .leave ∧ pos = 0 ∧
      found.stop = (Tokenizer.lineOf text).charToByte word.toList.length := by
  obtain ⟨contender, member, target⟩ := first.contends
  cases List.mem_singleton.mp member
  have tried := first.attempted
  rw [← target] at tried
  simp only [closing, attempts, Program.inBytes, lineAt_lineOf isWord free, Option.map_eq_some_iff,
    Option.ite_none_right_eq_some] at tried
  obtain ⟨chars, ⟨⟨rfl, rfl⟩, same⟩, spans⟩ := tried
  cases same
  have whole := first.whole
  rw [← spans] at whole
  have ahead := first.ahead
  rw [SourceLine.charToByte_zero] at ahead
  refine ⟨rfl, target.symm, Nat.le_zero.mp ahead, ?_⟩
  simpa [Spans.whole, Span.inBytes] using whole.symm

omit isWord in
theorem start_le (word : String) :
    2 + word.toList.length ≤ (Tokenizer.lineOf ("<<" ++ word)).charCount := by
  rw [SourceLine.charCount_eq, toList_start]
  simp
  omega

/-- The end is resolved to the word that stands behind the mark. -/
theorem resolve_start {stop : Nat}
    (ends : stop = (Tokenizer.lineOf ("<<" ++ word)).charToByte (2 + word.toList.length)) :
    let line := Tokenizer.lineOf ("<<" ++ word)
    (resolve "^\\1$" line #[some ⟨0, stop⟩, some ⟨line.charToByte 2, stop⟩]).1 = ending word := by
  intro line
  refine resolve_stop isWord (by simp) ?_
  have slice := line.slice?_charToByte (Nat.le_add_right 2 word.toList.length) (start_le word)
  rw [toList_start, Nat.add_sub_cancel_left, List.drop_succ_cons, List.drop_succ_cons, List.drop_zero,
    List.take_left, String.ofList_toList, ← ends] at slice
  exact slice

/-- The region does not end on the line of its start. -/
theorem no_end {pos : Nat} (first : Line.FirstAttempt (attempts inWord word) [closing word]
    (Tokenizer.lineOf ("<<" ++ word)) pos found index) : False := by
  have free : '\n' ∉ ("<<" ++ word).toList := by simp [free_word isWord]
  have same := congrArg (fun text => text.toList.length) (first_end isWord free first).1
  simp only [String.toList_append, List.length_append] at same
  have two : "<<".toList.length = 2 := rfl
  omega

/-- The region does not start again on the line where it ends. -/
theorem no_start {pos : Nat} (first : Line.FirstAttempt (attempts inWord word) [opening]
    (Tokenizer.lineOf word) pos found index) : False := by
  obtain ⟨contender, member, target⟩ := first.contends
  cases List.mem_singleton.mp member
  have tried := first.attempted
  rw [← target] at tried
  simp [opening, attempts, Program.inBytes, markedAt_word isWord] at tried

/-- On the line of the start the region is entered and not left. -/
theorem pursuit_start (reads : engine.ReadsWords inWord) (scopeName : String) (name contentName : Option String) (styling : Styling) :
    Line.Pursuit engine (grammar scopeName name contentName) styling
      (Tokenizer.lineOf ("<<" ++ word)) (attempts inWord word)
      (fun cursor => cursor.pos = 0 ∧ cursor.stack.outline = outside ∨
        cursor.stack.outline = inside word)
      (fun stack => stack.outline = inside word) where
  attempted := by
    rintro cursor (⟨-, outline⟩ | outline)
    · rw [contenders_outside outline]
      exact attempted_outside reads word cursor.flavour
    · rw [contenders_inside isWord outline]
      exact attempted_inside reads isWord cursor.flavour
  finishes := by
    rintro cursor (⟨start, outline⟩ | outline) nothing
    · rw [contenders_outside outline] at nothing
      have none := nothing opening List.mem_cons_self 0 (Nat.zero_le _)
        (by rw [start]; exact Nat.zero_le _)
      cases none.symm.trans (attempt_start isWord reads)
    · exact outline
  moves := by
    rintro cursor found index (⟨start, outline⟩ | outline) first
    · rw [contenders_outside outline, start] at first
      obtain ⟨-, stop, -⟩ := first_start isWord reads first
      rw [start, stop, ← SourceLine.charToByte_zero]
      exact ⟨SourceLine.charToByte_strictMono _ (by omega) (start_le word),
        SourceLine.charToByte_le_byteSize _ _⟩
    · rw [contenders_inside isWord outline] at first
      exact (no_end isWord first).elim
  leaves := by
    rintro cursor found index (⟨start, outline⟩ | outline) first target
    · rw [contenders_outside outline, start] at first
      cases target.symm.trans (first_start isWord reads first).1
    · rw [contenders_inside isWord outline] at first
      exact (no_end isWord first).elim
  enters := by
    rintro cursor found index id (⟨start, outline⟩ | outline) first target
    · rw [contenders_outside outline, start] at first
      obtain ⟨enters, stop, spans⟩ := first_start isWord reads first
      cases target.symm.trans enters
      obtain ⟨rule, known, entered⟩ := outline_entered scopeName name contentName "<<(\\w+)" "^\\1$" []
        engine styling (Tokenizer.lineOf ("<<" ++ word)) cursor found
      refine ⟨rule, known, .inr (entered.trans ?_)⟩
      rw [outline, (Stack.top_of_outline outline).1, spans]
      simp [ofText_stop, resolve_start isWord stop, inside]
    · rw [contenders_inside isWord outline] at first
      exact (no_end isWord first).elim

/-- On a later line the region is left if the line is the word. -/
theorem pursuit_later (reads : engine.ReadsWords inWord) (free : '\n' ∉ text.toList) (scopeName : String)
    (name contentName : Option String) (styling : Styling) :
    Line.Pursuit engine (grammar scopeName name contentName) styling (Tokenizer.lineOf text)
      (attempts inWord word)
      (fun cursor => cursor.pos = 0 ∧ cursor.stack.outline = inside word ∨
        text = word ∧ cursor.stack.outline = outside)
      (fun stack => stack.outline = if text = word then outside else inside word) where
  attempted := by
    rintro cursor (⟨-, outline⟩ | ⟨-, outline⟩)
    · rw [contenders_inside isWord outline]
      exact attempted_inside reads isWord cursor.flavour
    · rw [contenders_outside outline]
      exact attempted_outside reads word cursor.flavour
  finishes := by
    rintro cursor (⟨start, outline⟩ | ⟨same, outline⟩) nothing
    · rw [contenders_inside isWord outline] at nothing
      have none := nothing (closing word) List.mem_cons_self 0 (Nat.zero_le _)
        (by rw [start]; exact Nat.zero_le _)
      rw [outline, if_neg]
      rintro rfl
      simp [closing, attempts, Program.inBytes, lineAt_lineOf isWord free] at none
    · rw [outline, if_pos same]
  moves := by
    rintro cursor found index (⟨start, outline⟩ | ⟨rfl, outline⟩) first
    · rw [contenders_inside isWord outline] at first
      obtain ⟨rfl, -, -, stop⟩ := first_end isWord free first
      rw [start, stop, ← SourceLine.charToByte_zero]
      refine ⟨SourceLine.charToByte_strictMono _ (length_pos isWord) ?_,
        SourceLine.charToByte_le_byteSize _ _⟩
      rw [SourceLine.charCount_eq, Tokenizer.toList_lineOf]
      simp
    · rw [contenders_outside outline] at first
      exact (no_start isWord first).elim
  leaves := by
    rintro cursor found index (⟨start, outline⟩ | ⟨rfl, outline⟩) first target
    · rw [contenders_inside isWord outline] at first
      exact .inr ⟨(first_end isWord free first).1, Stack.outline_left outline (by simp [outside])⟩
    · rw [contenders_outside outline] at first
      exact (no_start isWord first).elim
  enters := by
    rintro cursor found index id (⟨start, outline⟩ | ⟨rfl, outline⟩) first target
    · rw [contenders_inside isWord outline] at first
      cases target.symm.trans (first_end isWord free first).2.1
    · rw [contenders_outside outline] at first
      exact (no_start isWord first).elim

end Scan

section Documents

variable {word : String} (isWord : IsWord word) {scopeName : String}
  {name contentName : Option String} {tokenizer : Tokenizer}
  (same : tokenizer.grammar = grammar scopeName name contentName)
  (reads : engine.ReadsWords inWord)

include isWord same reads

/-- The line of the start leaves the region open. -/
theorem outline_start {store : Store} (used : InUse engine tokenizer.grammar store)
    (theme : Theme) :
    (tokenizer.outcome engine theme none ("<<" ++ word) (fun _ => false) store).stack.outline =
      inside word := by
  have pursued := pursuit_start isWord reads scopeName name contentName (tokenizer.styling theme)
  refine outcome_region same used.serves theme none _ pursued (.inl ⟨rfl, ?_⟩)
  show (tokenizer.startStack theme none).outline = outside
  rw [tokenizer.outline_startStack_none, same]
  rfl

/-- A later line closes the region if it is the word. -/
theorem outline_later {store : Store} (used : InUse engine tokenizer.grammar store)
    (theme : Theme) {state : Option Stack}
    (before : (tokenizer.startStack theme state).outline = inside word) {text : String}
    (free : '\n' ∉ text.toList) :
    (tokenizer.outcome engine theme state text (fun _ => false) store).stack.outline =
      if text = word then outside else inside word := by
  have pursued := pursuit_later isWord reads free scopeName name contentName (tokenizer.styling theme)
  exact outcome_region same used.serves theme state text pursued (.inl ⟨rfl, before⟩)

/-- As long as the word has not come up, the depth after a line says whether it has now. -/
theorem depth_later (theme : Theme) {lines : List String} (free : ∀ line ∈ lines, '\n' ∉ line.toList)
    {state : Option Stack} {store : Store} (used : InUse engine tokenizer.grammar store)
    (before : (tokenizer.startStack theme state).outline = inside word) {index : Nat} {line : String}
    (held : lines[index]? = some line) (waits : word ∉ lines.take index) :
    (tokenizer.scanLines engine theme (fun _ => false) state lines store)[index]?.map
      (·.state.depth) = some (if line = word then 1 else 2) := by
  -- The frames of the region are handed on as long as the word has not come.
  induction lines generalizing state store index with
  | nil => cases held
  | cons text lines ih =>
    obtain ⟨freeFirst, freeOthers⟩ := List.forall_mem_cons.mp free
    have after := outline_later isWord same reads used theme before freeFirst
    rw [← tokenizer.outline_scanLine] at after
    cases index with
    | zero =>
      cases held
      simp only [Tokenizer.scanLines, List.getElem?_cons_zero, Option.map_some]
      split at after
      next same => rw [if_pos same, (Stack.top_of_outline after).1]
      next other => rw [if_neg other, (Stack.top_of_outline after).1]
    | succ index =>
      rw [List.take_succ_cons, List.mem_cons, not_or] at waits
      rw [if_neg (Ne.symm waits.1)] at after
      exact ih freeOthers (used.scanned tokenizer rfl theme state text (fun _ => false))
        ((tokenizer.outline_startStack_some theme _).trans after) held waits.2

end Documents
end Heredoc

/-- A region ends at the word that it was started with. With an engine that finds words and lines as it is
documented, for every word of letters, digits and underscores, the grammar of a region from a word
behind `<<` to a line that is the word compiles, and the state after the line of the start has depth 2.
So has the state after every later line up to the first that is the word, and the state after that line
has depth 1. -/
theorem heredoc_ends_at_word {engine : Engine} {inWord : Char → Bool}
    (reads : engine.ReadsWords inWord) (scopeName : String) (name contentName : Option String)
    (journal : Journal) {word : String} (nonempty : word ≠ "")
    (plain : ∀ c ∈ word.toList, c.isAlphanum ∨ c = '_') {lines : List String}
    (free : ∀ line ∈ lines, '\n' ∉ line.toList) :
    ∃ compilation, (compile scopeName ⟨[(scopeName, Heredoc.source scopeName name contentName)]⟩ []
        engine journal).1 = .ok compilation ∧
      ∀ config depth theme,
        let depths := (compilation.shown config depth engine theme none
          (("<<" ++ word) :: lines)).map ShownLine.depth
        depths[0]? = some 2 ∧ ∀ index line, lines[index]? = some line → word ∉ lines.take index →
          depths[index + 1]? = some (if line = word then 1 else 2) := by
  have isWord : Heredoc.IsWord word := ⟨nonempty, fun c member => by
    simpa [isWordChar] using plain c member⟩
  obtain ⟨patterns, compiled⟩ := Heredoc.compiles reads scopeName name contentName journal
  let compilation : Compilation := ⟨Heredoc.grammar scopeName name contentName, patterns⟩
  refine ⟨compilation, compiled, fun config depth theme => ?_⟩
  intro depths
  let tokenizer := compilation.tokenizer config depth
  have same : tokenizer.grammar = Heredoc.grammar scopeName name contentName := rfl
  have used : InUse engine tokenizer.grammar compilation.store := .compiled compiled rfl {}
  have start := Heredoc.outline_start isWord same reads used theme
  rw [← tokenizer.outline_scanLine] at start
  constructor
  · exact congrArg some (Stack.top_of_outline start).1
  · intro index line held waits
    have later := Heredoc.depth_later isWord same reads theme free
      (used.scanned tokenizer rfl theme none ("<<" ++ word) (fun _ => false))
      ((tokenizer.outline_startStack_some theme _).trans start) held waits
    rw [← later]
    simp only [depths, Compilation.shown, Tokenizer.scanLines, List.map_cons,
      List.getElem?_cons_succ, List.getElem?_map, Option.map_map]
    rfl

/-- Neither a longer line nor a start of another region ends the region, and what comes after its end
does not matter. -/
theorem heredoc_ends_at_word_eof :
    (backtracking.ReadsWords (isWordChar false) ∧ "EOF" ≠ "" ∧
      (∀ c ∈ "EOF".toList, c.isAlphanum ∨ c = '_') ∧
      ∀ line ∈ [" EOF", "<<EOF", "EOF", "<<A"], '\n' ∉ line.toList) ∧
    ∃ compilation, (compile "source.x" ⟨[("source.x", Heredoc.source "source.x" none none)]⟩ []
        backtracking {}).1 = .ok compilation ∧
      let depths := (compilation.shown none 3 backtracking .plain none
        ["<<EOF", " EOF", "<<EOF", "EOF", "<<A"]).map ShownLine.depth
      depths[0]? = some 2 ∧ depths[1]? = some 2 ∧ depths[2]? = some 2 ∧ depths[3]? = some 1 := by
  have reads := readsWords_backtracking
  have some : "EOF" ≠ "" := by decide
  have plain : ∀ c ∈ "EOF".toList, c.isAlphanum ∨ c = '_' := by simp
  have free : ∀ line ∈ [" EOF", "<<EOF", "EOF", "<<A"], '\n' ∉ line.toList := by simp
  obtain ⟨compilation, compiled, depths⟩ :=
    heredoc_ends_at_word reads "source.x" none none {} some plain free
  obtain ⟨start, later⟩ := depths none 3 .plain
  exact ⟨⟨reads, some, plain, free⟩, compilation, compiled, start, later 0 " EOF" rfl (by decide),
    later 1 "<<EOF" rfl (by decide), later 2 "EOF" rfl (by decide)⟩

end ScopeLexer

import ScopeLexer.Proofs.ContenderScan
import ScopeLexer.Proofs.InjectionTransparency
import ScopeLexer.Proofs.RegionGrammars

/-!
Brackets and the depth of states. A grammar whose only rule is a region from `(` to `)`, with the top
level inside it, keeps count of the brackets that are open: the state after a line is one deeper than
there are. A `)` that closes nothing is passed over, as nothing is left at the top level.
-/
namespace ScopeLexer

open Grammar Pattern Regex

/-- How many brackets are open after a character. A `)` closes the last that was opened, if any is. -/
def openAfter (count : Nat) (c : Char) : Nat :=
  if c = '(' then count + 1 else if c = ')' then count - 1 else count

namespace Brackets

def source (scopeName : String) (name contentName : Option String) : GrammarSource where
  scopeName := scopeName
  patterns := [1]
  rules := #[{ reference := some "$self" },
    { name := name
      contentName := contentName
      beginPattern := some "\\("
      endPattern := some "\\)"
      patterns := some [0] }]

-- A document of the grammar.
example : (GrammarSource.ofText ("\x7b\"scopeName\": \"source.x\", \"patterns\": [\x7b" ++
    "\"begin\": \"\\\\(\", \"end\": \"\\\\)\", " ++
    "\"patterns\": [\x7b\"include\": \"$self\"\x7d]\x7d]\x7d")).toOption ==
      some (source "source.x" none none) := by
  decide +kernel

def grammar (scopeName : String) (name contentName : Option String) : CompiledGrammar :=
  regionGrammar scopeName name contentName "\\(" "\\)" [0]

theorem ofText_start : Pattern.ofText "\\(" = { source := "\\(" } := ofText_escape "("

theorem ofText_stop : Pattern.ofText "\\)" = { source := "\\)" } := ofText_escape ")"

variable {engine : Engine}

/-- The start of the region finds `(`. -/
theorem compile_start (reads : engine.ReadsText) : ∃ searcher, engine.compile "\\(" = .ok searcher ∧
    searcher.FindsFirst (Program.inBytes (wordAt ['('])) :=
  reads "\\(" ['('] (by decide)

/-- The end of the region finds `)`. -/
theorem compile_stop (reads : engine.ReadsText) : ∃ searcher, engine.compile "\\)" = .ok searcher ∧
    searcher.FindsFirst (Program.inBytes (wordAt [')'])) :=
  reads "\\)" [')'] (by decide)

/-- Under any engine that reads texts the grammar compiles, and to the rules that it is shown
with. -/
theorem compiles (reads : engine.ReadsText) (scopeName : String) (name contentName : Option String)
    (journal : Journal) :
    ∃ patterns, (compile scopeName ⟨[(scopeName, source scopeName name contentName)]⟩ [] engine
      journal).1 = .ok ⟨grammar scopeName name contentName, patterns⟩ := by
  obtain ⟨opens, takesStart, -⟩ := compile_start reads
  obtain ⟨closes, takesStop, -⟩ := compile_stop reads
  have one : OneRegion (source scopeName name contentName) 1 name contentName "\\(" "\\)" (some [0])
      engine := {
    uninjected := rfl
    tried := rfl
    written := rfl
    recurs := by simp [source, GrammarSource.rule]
    takesStart := ⟨opens, by rw [ofText_start]; exact takesStart⟩
    takesStop := .inr ⟨closes, by rw [ofText_stop]; exact takesStop⟩ }
  exact one.compiles journal

section Characters

variable {line : SourceLine} {index : Nat} {c : Char}

/-- What is attempted for a region to be left and to be entered: its bracket, at a character. -/
def attempts : Line.Target → SourceLine → Nat → Option Spans
  | .leave => Program.inBytes (wordAt [')'])
  | .enter _ => Program.inBytes (wordAt ['('])

theorem charAt_iff {spans : Spans} : Program.inBytes (wordAt [c]) line index = some spans ↔
    line.text.toList[index]? = some c ∧
      spans = #[some ⟨line.charToByte index, line.charToByte (index + 1)⟩] := by
  have here : [c] <+: line.text.toList.drop index ↔ line.text.toList[index]? = some c := by
    rw [← List.head?_drop]
    cases line.text.toList.drop index with
    | nil => simp
    | cons first rest => simp [eq_comm]
  rw [inBytes_wordAt_iff, here]
  rfl

end Characters

/-- Characters that open and close nothing can be passed over. -/
theorem foldl_skip {chars : List Char} {count : Nat} (first : Nat) {last : Nat} (le : first ≤ last)
    (idle : ∀ index, first ≤ index → index < last → ∀ c, chars[index]? = some c →
      openAfter count c = count) :
    (chars.drop first).foldl openAfter count = (chars.drop last).foldl openAfter count := by
  induction last, le using Nat.le_induction with
  | base => rfl
  | succ last le ih =>
    rw [ih fun index after before => idle index after (by omega)]
    by_cases inside : last < chars.length
    · rw [List.drop_eq_getElem_cons inside, List.foldl_cons,
        idle last le (Nat.lt_succ_self last) _ (List.getElem?_eq_getElem inside)]
    · rw [List.drop_eq_nil_of_le (by omega), List.drop_eq_nil_of_le (by omega)]

section Scan

variable {scopeName : String} {name contentName : Option String} {line : SourceLine}
  {cursor : Line.Cursor} {index count : Nat}

def opening : Line.Contender := ⟨.enter 1, { source := "\\(" }⟩

def closing : Line.Contender := ⟨.leave, { source := "\\)" }⟩

/-- The contenders while some brackets are open. -/
def contendersAt : Nat → List Line.Contender
  | 0 => [opening]
  | _ + 1 => [closing, opening]

theorem opening_mem (count : Nat) : opening ∈ contendersAt count := by
  cases count <;> simp [contendersAt]

/-- The region can be entered, and it can be left while a bracket is open. -/
theorem target_cases {contender : Line.Contender} (member : contender ∈ contendersAt count) :
    contender.target = .enter 1 ∨ contender.target = .leave ∧ 0 < count := by
  cases count with
  | zero =>
    cases List.mem_singleton.mp member
    exact .inl rfl
  | succ count =>
    rcases List.mem_cons.mp member with rfl | member
    · exact .inr ⟨rfl, Nat.succ_pos count⟩
    · cases List.mem_singleton.mp member
      exact .inl rfl

/-- The frames while some brackets are open. -/
def nested : Nat → List (Nat × RuleId × Option String)
  | 0 => [(1, 0, none)]
  | count + 1 => (count + 2, 1, none) :: nested count

theorem nested_eq_cons (count : Nat) :
    ∃ rule below, nested count = (count + 1, rule, none) :: below := by
  cases count <;> exact ⟨_, _, rfl⟩

/-- What is tried inside so many brackets depends on the number of brackets alone. -/
theorem ruleContenders_eq {stack : Stack} (outline : stack.outline = nested count) :
    Line.ruleContenders (grammar scopeName name contentName) stack.top.rule stack.top.ending =
      contendersAt count := by
  cases count with
  | zero =>
    obtain ⟨-, rule, ending⟩ := Stack.top_of_outline outline
    rw [rule, ending, grammar, ruleContenders_top, ofText_start]
    rfl
  | succ count =>
    obtain ⟨-, rule, ending⟩ := Stack.top_of_outline outline
    rw [rule, ending]
    simp [Line.ruleContenders, CompiledGrammar.candidates, CompiledGrammar.flatten,
      CompiledGrammar.rule, Line.startContender, Line.endContender, Rule.patterns, Rule.entryPattern,
      grammar, regionGrammar, loneRegion, contendersAt, opening, closing, ofText_start, ofText_stop]

/-- Each of the patterns tried finds the first place where its attempt succeeds. -/
theorem attempted (reads : engine.ReadsText) (flavour : Flavour) (count : Nat) :
    Line.Attempted engine flavour attempts (contendersAt count) := by
  obtain ⟨opens, takesStart, findsStart⟩ := compile_start reads
  obtain ⟨closes, takesStop, findsStop⟩ := compile_stop reads
  have start : opening.pattern.searcher engine flavour = some opens :=
    searcher_of_compile takesStart flavour
  have stop : closing.pattern.searcher engine flavour = some closes :=
    searcher_of_compile takesStop flavour
  cases count with
  | zero => simpa [Line.Attempted, contendersAt] using ⟨opens, start, findsStart⟩
  | succ count =>
    simpa [Line.Attempted, contendersAt] using ⟨⟨closes, stop, findsStop⟩, opens, start, findsStart⟩

/-- Where nothing is attempted the character changes nothing. -/
theorem openAfter_idle {c : Char}
    (nothing : ∀ contender ∈ contendersAt count, attempts contender.target line index = none)
    (held : line.text.toList[index]? = some c) : openAfter count c = count := by
  have apart (bracket : Char)
      (none : Program.inBytes (wordAt [bracket]) line index = none) : c ≠ bracket := by
    rintro rfl
    rw [charAt_iff.mpr ⟨held, rfl⟩] at none
    cases none
  have unopened : c ≠ '(' := apart '(' (nothing opening (opening_mem count))
  cases count with
  | zero => simp [openAfter, unopened]
  | succ count =>
    have unclosed : c ≠ ')' := apart ')' (nothing closing (by simp [contendersAt]))
    simp [openAfter, unopened, unclosed]

/-- A cursor stands at a character, with so many brackets open that at the end of the line a given
number will be. -/
structure Reads (line : SourceLine) (last : Nat) (cursor : Line.Cursor) (index count : Nat) : Prop where
  inside : index ≤ line.charCount
  stands : cursor.pos = line.charToByte index
  outline : cursor.stack.outline = nested count
  onward : (line.text.toList.drop index).foldl openAfter count = last

namespace Reads

variable {last : Nat} {found : Line.Match} {next : Nat}

/-- Up to the first attempt nothing is opened or closed. -/
theorem skip (reads : Reads line last cursor index count)
    (first : Line.FirstAttempt attempts (contendersAt count) line cursor.pos found next) :
    (line.text.toList.drop next).foldl openAfter count = last := by
  -- No character before the cursor is attempted.
  have ahead : index ≤ next := by
    by_contra behind
    have moved := line.charToByte_strictMono (Nat.lt_of_not_le behind) reads.inside
    have reached := first.ahead
    rw [reads.stands] at reached
    omega
  rw [← foldl_skip index ahead, reads.onward]
  intro between after before c held
  refine openAfter_idle (fun contender member => ?_) held
  refine first.first contender member between before ?_
  rw [reads.stands]
  exact line.charToByte_mono after

/-- Where no attempt is left nothing is opened or closed any more. -/
theorem finished (reads : Reads line last cursor index count)
    (nothing : ∀ contender ∈ contendersAt count, ∀ index ≤ line.charCount,
      cursor.pos ≤ line.charToByte index → attempts contender.target line index = none) :
    count = last := by
  have whole := reads.inside
  rw [line.charCount_eq] at whole
  rw [← reads.onward, foldl_skip index whole, List.drop_length, List.foldl_nil]
  intro between after before c held
  refine openAfter_idle (fun contender member => ?_) held
  refine nothing contender member between (by rw [line.charCount_eq]; omega) ?_
  rw [reads.stands]
  exact line.charToByte_mono after

/-- The first attempt is at a bracket, which is read next. -/
theorem read (reads : Reads line last cursor index count) (bracket : Char)
    (same : attempts found.target = Program.inBytes (wordAt [bracket]))
    (first : Line.FirstAttempt attempts (contendersAt count) line cursor.pos found next) :
    next < line.charCount ∧ found.stop = line.charToByte (next + 1) ∧
      (line.text.toList.drop (next + 1)).foldl openAfter (openAfter count bracket) = last := by
  have tried := first.attempted
  rw [same, charAt_iff] at tried
  obtain ⟨held, spans⟩ := tried
  obtain ⟨inside, here⟩ := List.getElem?_eq_some_iff.mp held
  refine ⟨by rwa [line.charCount_eq], ?_, ?_⟩
  · have whole := first.whole
    rw [spans] at whole
    simpa [Spans.whole] using whole.symm
  · rw [← reads.skip first, List.drop_eq_getElem_cons inside, List.foldl_cons, here]

end Reads

/-- A scan counts the brackets of its line. -/
theorem pursuit (reads : engine.ReadsText) (scopeName : String) (name contentName : Option String)
    (styling : Styling) (line : SourceLine) (last : Nat) :
    Line.Pursuit engine (grammar scopeName name contentName) styling line attempts
      (fun cursor => ∃ index count, Reads line last cursor index count)
      (fun stack => stack.outline = nested last) where
  attempted := by
    rintro cursor ⟨index, count, held⟩
    rw [Line.Cursor.contenders, ruleContenders_eq held.outline]
    exact attempted reads cursor.flavour count
  finishes := by
    rintro cursor ⟨index, count, held⟩ nothing
    rw [Line.Cursor.contenders, ruleContenders_eq held.outline] at nothing
    rw [held.outline, held.finished nothing]
  moves := by
    rintro cursor found next ⟨index, count, held⟩ first
    rw [Line.Cursor.contenders, ruleContenders_eq held.outline] at first
    obtain ⟨bracket, same⟩ : ∃ bracket, attempts found.target = Program.inBytes (wordAt [bracket]) := by
      cases found.target <;> exact ⟨_, rfl⟩
    obtain ⟨inside, stop, -⟩ := held.read bracket same first
    rw [stop]
    exact ⟨Nat.lt_of_le_of_lt first.ahead (line.charToByte_strictMono (Nat.lt_succ_self next) inside),
      line.charToByte_le_byteSize _⟩
  leaves := by
    rintro cursor found next ⟨index, count, held⟩ first target
    rw [Line.Cursor.contenders, ruleContenders_eq held.outline] at first
    obtain ⟨inside, stop, onward⟩ := held.read ')' (by rw [target]; rfl) first
    obtain ⟨contender, member, same⟩ := first.contends
    obtain ⟨fewer, rfl⟩ : ∃ fewer, count = fewer + 1 := by
      obtain enters | ⟨-, positive⟩ := target_cases member
      · cases (same.symm.trans enters).symm.trans target
      · exact Nat.exists_eq_add_one.mpr positive
    obtain ⟨rule, below, shape⟩ := nested_eq_cons fewer
    exact ⟨next + 1, fewer, inside, stop, Stack.outline_left held.outline (by simp [shape]), onward⟩
  enters := by
    rintro cursor found next id ⟨index, count, held⟩ first target
    rw [Line.Cursor.contenders, ruleContenders_eq held.outline] at first
    obtain ⟨inside, stop, onward⟩ := held.read '(' (by rw [target]; rfl) first
    obtain ⟨contender, member, same⟩ := first.contends
    obtain rfl : id = 1 := by
      rw [target] at same
      obtain enters | ⟨leaves, -⟩ := target_cases member
      · cases same.symm.trans enters
        rfl
      · cases same.symm.trans leaves
    obtain ⟨rule, spans, entered⟩ := outline_entered scopeName name contentName "\\(" "\\)" [0]
      engine styling line cursor found
    refine ⟨rule, spans, next + 1, count + 1, inside, stop, entered.trans ?_, onward⟩
    obtain ⟨_, below, shape⟩ := nested_eq_cons count
    rw [held.outline, (Stack.top_of_outline (held.outline.trans shape)).1]
    simp [ofText_stop, nested]

end Scan

section Lines

variable {scopeName : String} {name contentName : Option String} {tokenizer : Tokenizer}
  (same : tokenizer.grammar = grammar scopeName name contentName) (reads : engine.ReadsText)

include same reads

/-- The brackets of a line are counted on from those that are open before it. -/
theorem outline_outcome {store : Store} (used : InUse engine tokenizer.grammar store)
    (theme : Theme) {state : Option Stack} {count : Nat}
    (before : (tokenizer.startStack theme state).outline = nested count) (text : String) :
    (tokenizer.outcome engine theme state text (fun _ => false) store).stack.outline =
      nested (text.toList.foldl openAfter count) := by
  have pursued := pursuit reads scopeName name contentName (tokenizer.styling theme)
    (Tokenizer.lineOf text) (text.toList.foldl openAfter count)
  refine outcome_region same used.serves theme state text pursued
    ⟨0, count, Nat.zero_le _, ((Tokenizer.lineOf text).charToByte_zero).symm, before, ?_⟩
  simp [Tokenizer.toList_lineOf, openAfter]

/-- The depths after lines that are tokenized one after the other. -/
theorem depths_scanLines (theme : Theme) (texts : List String) {state : Option Stack} {store : Store}
    {count : Nat} (used : InUse engine tokenizer.grammar store)
    (before : (tokenizer.startStack theme state).outline = nested count) :
    (tokenizer.scanLines engine theme (fun _ => false) state texts store).map
        (·.state.depth) =
      (List.range texts.length).map fun index =>
        1 + ((texts.take (index + 1)).flatMap String.toList).foldl openAfter count := by
  -- The count goes on from line to line, as the state does.
  induction texts generalizing state store count with
  | nil => rfl
  | cons text texts ih =>
    have after := outline_outcome same reads used theme before text
    rw [← tokenizer.outline_scanLine] at after
    obtain ⟨rule, below, shape⟩ := nested_eq_cons (text.toList.foldl openAfter count)
    have later := ih (used.scanned tokenizer rfl theme state text (fun _ => false))
      ((tokenizer.outline_startStack_some theme _).trans after)
    rw [List.length_cons, List.range_succ_eq_map]
    simp only [Tokenizer.scanLines, List.map_cons, later, (Stack.top_of_outline (after.trans shape)).1]
    simp [Nat.add_comm]

end Lines
end Brackets

/-- The state after a line counts the brackets. With an engine that reads patterns as it is documented,
the grammar of a region from `(` to `)` around the top level compiles, and after each of any lines that
are tokenized one after the other, the depth of the state is one more than the number of brackets that
are open in all the text so far. -/
theorem brackets_balance {engine : Engine} (reads : engine.ReadsText) (scopeName : String)
    (name contentName : Option String) (journal : Journal) :
    ∃ compilation, (compile scopeName ⟨[(scopeName, Brackets.source scopeName name contentName)]⟩ []
        engine journal).1 = .ok compilation ∧
      ∀ config depth theme texts,
        (compilation.shown config depth engine theme none texts).map ShownLine.depth =
          (List.range texts.length).map fun index =>
            1 + ((texts.take (index + 1)).flatMap String.toList).foldl openAfter 0 := by
  obtain ⟨patterns, compiled⟩ := Brackets.compiles reads scopeName name contentName journal
  refine ⟨_, compiled, fun config depth theme texts => ?_⟩
  rw [Compilation.shown, List.map_map]
  exact Brackets.depths_scanLines rfl reads theme texts (.compiled compiled rfl {}) rfl

/-- A bracket that closes nothing is passed over, and an open one is closed on a later line. -/
theorem brackets_balance_across_lines :
    backtracking.ReadsText ∧
    ∃ compilation, (compile "source.x" ⟨[("source.x", Brackets.source "source.x" none none)]⟩ []
        backtracking {}).1 = .ok compilation ∧
      (compilation.shown none 3 backtracking .plain none [")((", "a)(", "))"]).map ShownLine.depth =
        [3, 3, 1] := by
  obtain ⟨compilation, compiled, depths⟩ :=
    brackets_balance readsText_backtracking "source.x" none none {}
  refine ⟨readsText_backtracking, compilation, compiled, (depths none 3 .plain _).trans ?_⟩
  decide

end ScopeLexer

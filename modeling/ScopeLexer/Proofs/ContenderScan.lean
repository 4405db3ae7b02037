import ScopeLexer.Proofs.MatchSelection
import ScopeLexer.Proofs.RenumberedScan

/-!
Scans of a grammar whose patterns find their first occurrence. Where nothing is injected, the next match
is the earliest of those of the contenders of the rule at the top, whatever was remembered on the way to
it. So a scan can be followed match by match: a property of cursors that the matches keep, and whose
cursors all lead on to something, leads to what it is about at the end of the line.
-/
namespace ScopeLexer

open Grammar Pattern Regex

namespace Line

section Attempts

variable {engine : Engine} {flavour : Flavour} {contenders : List Contender}
  {attempts : Target → SourceLine → Nat → Option Spans}

/-- The patterns of contenders find the first of the attempts that belong to what they lead to. -/
def Attempted (engine : Engine) (flavour : Flavour)
    (attempts : Target → SourceLine → Nat → Option Spans) (contenders : List Contender) : Prop :=
  ∀ contender ∈ contenders, ∃ searcher, contender.pattern.searcher engine flavour = some searcher ∧
    searcher.FindsFirst (attempts contender.target)

theorem Attempted.sound (attempted : Attempted engine flavour attempts contenders) :
    ∀ contender ∈ contenders, contender.Sound engine flavour := by
  intro contender member
  obtain ⟨searcher, made, finds⟩ := attempted contender member
  exact .of_findsFirst made finds

/-- A match is an attempt at a character before which, from a byte on, no contender has any. -/
structure FirstAttempt (attempts : Target → SourceLine → Nat → Option Spans)
    (contenders : List Contender) (line : SourceLine) (pos : Nat) (found : Match) (index : Nat) :
    Prop where
  inside : index ≤ line.charCount
  ahead : pos ≤ line.charToByte index
  starts : found.start = line.charToByte index
  contends : ∃ contender ∈ contenders, contender.target = found.target
  attempted : attempts found.target line index = some found.spans
  whole : found.spans.whole = some ⟨line.charToByte index, found.stop⟩
  first : ∀ contender ∈ contenders, ∀ earlier < index, pos ≤ line.charToByte earlier →
    attempts contender.target line earlier = none

/-- The match of one contender is the first of its own attempts. Without one there are none. -/
theorem Attempted.matchFrom_cases (attempted : Attempted engine flavour attempts contenders)
    {contender : Contender} (member : contender ∈ contenders) (line : SourceLine) (pos : Nat) :
    match contender.matchFrom engine flavour line pos with
    | none => ∀ index ≤ line.charCount, pos ≤ line.charToByte index →
        attempts contender.target line index = none
    | some found => ∃ index, FirstAttempt attempts [contender] line pos found index := by
  obtain ⟨searcher, made, finds⟩ := attempted contender member
  simp only [Contender.matchFrom, made, Option.bind_some]
  obtain ⟨nothing, nowhere⟩ | ⟨index, spans, found, bound, ahead, tried, first⟩ := finds.cases line pos
  · rw [nothing]
    exact nowhere
  · obtain ⟨stop, whole, -⟩ := finds.starts line index spans tried
    simp only [found, whole, Option.bind_some, Option.map_some]
    refine ⟨index, bound, ahead, rfl, ⟨contender, List.mem_singleton_self _, rfl⟩, tried, whole, ?_⟩
    intro other among
    cases List.mem_singleton.mp among
    exact first

/-- The earliest match is a first attempt. Without one there are no attempts. -/
theorem Attempted.earliest_cases (attempted : Attempted engine flavour attempts contenders)
    (line : SourceLine) (pos : Nat) :
    match earliest (contenders.filterMap (Contender.matchFrom engine flavour line pos)) with
    | none => ∀ contender ∈ contenders, ∀ index ≤ line.charCount, pos ≤ line.charToByte index →
        attempts contender.target line index = none
    | some found => ∃ index, FirstAttempt attempts contenders line pos found index := by
  have comes := comesFirst_earliest (Contender.matchFrom engine flavour line pos) contenders
  split
  next nothing =>
    rw [nothing] at comes
    intro contender member
    have own := attempted.matchFrom_cases member line pos
    rwa [comes contender member] at own
  next found wins =>
    rw [wins] at comes
    obtain ⟨before, winner, after, parts, matched, earlier, later⟩ := comes
    have among : winner ∈ contenders := by simp [parts]
    have own := attempted.matchFrom_cases among line pos
    rw [matched] at own
    obtain ⟨index, own⟩ := own
    obtain ⟨_, same, target⟩ := own.contends
    cases List.mem_singleton.mp same
    refine ⟨index, own.inside, own.ahead, own.starts, ⟨winner, among, target⟩, own.attempted,
      own.whole, ?_⟩
    intro contender member skipped lt reaches
    have bound := own.inside
    have theirs := attempted.matchFrom_cases member line pos
    cases seen : contender.matchFrom engine flavour line pos with
    | none =>
      rw [seen] at theirs
      exact theirs skipped (by omega) reaches
    | some other =>
      rw [seen] at theirs
      obtain ⟨place, theirs⟩ := theirs
      -- The match of another contender does not start before the earliest.
      have le : found.start ≤ other.start := by
        rw [parts, List.mem_append, List.mem_cons] at member
        rcases member with front | rfl | back
        · exact Nat.le_of_lt (earlier contender front _ seen)
        · rw [matched] at seen
          exact Nat.le_of_eq (congrArg Match.start (Option.some.inj seen))
        · exact later contender back _ seen
      rw [own.starts, theirs.starts] at le
      have reached : index ≤ place := by
        by_contra behind
        have := line.charToByte_strictMono (Nat.lt_of_not_le behind) bound
        omega
      exact theirs.first contender (List.mem_singleton_self _) skipped (by omega) reaches

end Attempts

section Pursuit

def Cursor.contenders (grammar : CompiledGrammar) (cursor : Cursor) : List Contender :=
  ruleContenders grammar cursor.stack.top.rule cursor.stack.top.ending

variable (engine : Engine) (grammar : CompiledGrammar) (styling : Styling) (line : SourceLine)

/-- The scanner that remembers what it has found. -/
abbrev rememberingScanner : Scanner Workspace := ⟨grammar, styling, rememberingFinder engine grammar⟩

/-- A property of cursors from which a scan leads on, attempt by attempt, to a property of its last
stack. Every match moves the cursor. -/
structure Pursuit (attempts : Target → SourceLine → Nat → Option Spans) (Good : Cursor → Prop)
    (Ends : Stack → Prop) : Prop where
  attempted : ∀ cursor, Good cursor →
    Attempted engine cursor.flavour attempts (cursor.contenders grammar)
  finishes : ∀ cursor, Good cursor →
    (∀ contender ∈ cursor.contenders grammar, ∀ index ≤ line.charCount,
      cursor.pos ≤ line.charToByte index → attempts contender.target line index = none) →
    Ends cursor.stack
  moves : ∀ cursor found index, Good cursor →
    FirstAttempt attempts (cursor.contenders grammar) line cursor.pos found index →
    cursor.pos < found.stop ∧ found.stop ≤ line.byteSize
  leaves : ∀ cursor found index, Good cursor →
    FirstAttempt attempts (cursor.contenders grammar) line cursor.pos found index →
    found.target = .leave →
      Good { cursor with
        stack := cursor.stack.closing.pop
        pos := found.stop
        anchor := cursor.stack.top.anchor
        isFirst := false }
  enters : ∀ cursor found index id, Good cursor →
    FirstAttempt attempts (cursor.contenders grammar) line cursor.pos found index →
    found.target = .enter id → ∃ rule, spanning? (grammar.rule id) = some rule ∧
      Good { cursor with
        stack := enteredStack (rememberingScanner engine grammar styling) line cursor found id rule
        pos := found.stop
        anchor := some found.stop
        isFirst := false }

variable {engine grammar styling line} {Good : Cursor → Prop} {Ends : Stack → Prop}
  {attempts : Target → SourceLine → Nat → Option Spans} {known : List SourceLine}

/-- Where a step leads that finds the earliest match. -/
theorem Pursuit.course (pursuit : Pursuit engine grammar styling line attempts Good Ends)
    {cursor : Cursor} {step : Step Workspace} (good : Good cursor)
    (course : Course (rememberingScanner engine grammar styling) line cursor
      (earliest ((cursor.contenders grammar).filterMap
        (Contender.matchFrom engine cursor.flavour line cursor.pos))) step) :
    (∃ next work, step = .next next work ∧ Good next ∧ cursor.pos < next.pos ∧
      next.pos ≤ line.byteSize) ∨ ∃ stack work, step = .done stack work ∧ Ends stack := by
  have first := (pursuit.attempted cursor good).earliest_cases line cursor.pos
  generalize earliest ((cursor.contenders grammar).filterMap
    (Contender.matchFrom engine cursor.flavour line cursor.pos)) = expected at course first
  cases course with
  | finished work => exact .inr ⟨_, work, rfl, pursuit.finishes cursor good first⟩
  | left target _ work =>
    obtain ⟨index, first⟩ := first
    obtain ⟨ahead, inside⟩ := pursuit.moves cursor _ index good first
    refine .inl ⟨_, work, rfl, ?_⟩
    simp only [Cursor.advance, ahead, if_true]
    exact ⟨pursuit.leaves cursor _ index good first target, trivial, inside⟩
  | entered target spans _ work =>
    obtain ⟨index, first⟩ := first
    obtain ⟨ahead, inside⟩ := pursuit.moves cursor _ index good first
    obtain ⟨other, same, entered⟩ := pursuit.enters cursor _ index _ good first target
    rw [spans] at same
    cases same
    refine .inl ⟨_, work, rfl, ?_⟩
    simp only [Cursor.advance, ahead, if_true]
    exact ⟨entered, trivial, inside⟩
  | matched target single _ work =>
    obtain ⟨index, first⟩ := first
    obtain ⟨other, same, _⟩ := pursuit.enters cursor _ index _ good first target
    rw [single] at same
    cases same
  | leftInPlace target stays | enteredInPlace target spans stays
  | matchedInPlace target single stays =>
    obtain ⟨index, first⟩ := first
    exact absurd (pursuit.moves cursor _ index good first).1 (Nat.not_lt.mpr stays)

/-- A step leaves sets that are as they would be built anew. -/
theorem faithful_step (styling : Styling) {work : Work Workspace}
    (faithful : work.finder.Faithful engine grammar known work.lineCount) (member : line ∈ known)
    (depth : Nat) (cursor : Cursor) :
    let scanner := rememberingScanner engine grammar styling
    let taken := step scanner (rescanGroup scanner depth) line cursor work
    taken.work.finder.Faithful engine grammar known taken.work.lineCount := by
  intro scanner taken
  have twins : Work.Twins engine grammar known work work :=
    ⟨rfl, rfl, rfl, faithful, faithful.serves, faithful.serves, rfl, rfl⟩
  have agree : (twinScans engine grammar styling).Agree known taken taken :=
    Simulation.step_agree (Simulation.follows_rescanGroup _
      (twinScans_exhausts engine grammar styling) depth) twins member (.refl cursor.stack) trivial
  exact (show Work.Twins engine grammar known taken.work taken.work from agree.work).faithful

/-- A scan that is pursued ends as it should, if it is given a step for every byte. -/
theorem Pursuit.scanFrom (pursuit : Pursuit engine grammar styling line attempts Good Ends)
    (alone : grammar.injections = []) (member : line ∈ known) (depth : Nat) {steps : Nat}
    {cursor : Cursor} {work : Work Workspace} (good : Good cursor)
    (faithful : work.finder.Faithful engine grammar known work.lineCount)
    (enough : line.byteSize - cursor.pos < steps) :
    let scanner := rememberingScanner engine grammar styling
    Ends (Line.scanFrom scanner (rescanGroup scanner depth) (fun _ => false) line steps cursor
      work).stack := by
  intro scanner
  -- Every match moves the cursor, so that the steps left stay more than the bytes left.
  induction steps generalizing cursor work with
  | zero => omega
  | succ steps ih =>
    have course := step_course scanner (rescanGroup scanner depth) line cursor work
    have kept := faithful_step styling faithful member depth cursor
    have sorted : grammar.injections = sortInjections [] := by simp [alone, sortInjections]
    have sound := (pursuit.attempted cursor good).sound
    have answer : (scanner.finder.next line cursor.pos cursor.flavour cursor.stack work.finder).1 =
        earliest ((cursor.contenders grammar).filterMap
          (Contender.matchFrom engine cursor.flavour line cursor.pos)) := by
      rw [Cursor.contenders, ← contenders_nil] at sound ⊢
      exact faithful.findNext_earliest member sorted sound cursor.pos
    rw [answer] at course
    rw [Line.scanFrom]
    simp only [Bool.false_eq_true, if_false]
    obtain ⟨next, left, same, goes, ahead, inside⟩ | ⟨stack, left, same, ends⟩ :=
      pursuit.course good course
    · simp only [scanner] at same kept ⊢
      rw [same] at kept ⊢
      exact ih goes kept (by omega)
    · rw [same]
      exact ends

end Pursuit

section Start

variable {σ : Type}

/-- The cursor at the start of a line. -/
def Cursor.atStart (stack : Stack) (isFirst : Bool) : Cursor where
  stack := stack
  pos := 0
  anchor := if stack.top.tookLineEnd then some 0 else none
  isFirst := isFirst

theorem blocksOf_eq_nil {grammar : CompiledGrammar}
    (blockless : ∀ id rule, grammar.rule id ≠ .block rule) (frames : List Frame) :
    blocksOf grammar frames = [] := by
  induction frames with
  | nil => rfl
  | cons frame frames ih =>
    rw [blocksOf, ih]
    split
    next rule held => exact absurd held (blockless frame.rule rule)
    next => rfl

/-- Without rules that have a condition nothing is checked before a line. -/
theorem checkConditions_eq (scanner : Scanner σ)
    (blockless : ∀ id rule, scanner.grammar.rule id ≠ .block rule) (rescan : Rescan σ)
    (line : SourceLine) (isFirst : Bool) (stack : Stack) (work : Work σ) :
    checkConditions scanner rescan line isFirst stack work = (.atStart stack isFirst, work) := by
  rw [checkConditions, blocksOf_eq_nil blockless]
  rfl

theorem byteSize_lt_stepBound (scanner : Scanner σ) (line : SourceLine) (stack : Stack) :
    line.byteSize < stepBound scanner line stack := by
  have := Nat.le_mul_of_pos_right (2 * (line.byteSize + 1))
    (show 0 < scanner.grammar.rules.size + 2 by omega)
  unfold stepBound
  omega

end Start
end Line

namespace Stack

/-- The depths, rules and ends of the frames, from the top down. -/
def outline (stack : Stack) : List (Nat × RuleId × Option String) :=
  stack.frames.map fun frame => (frame.depth, frame.rule, frame.ending)

variable {stack : Stack} {depth : Nat} {rule : RuleId} {ending : Option String}
  {below : List (Nat × RuleId × Option String)}

theorem top_of_outline (same : stack.outline = (depth, rule, ending) :: below) :
    stack.depth = depth ∧ stack.top.rule = rule ∧ stack.top.ending = ending := by
  simp only [outline, frames, List.map_cons, List.cons.injEq, Prod.mk.injEq] at same
  exact same.1

theorem outline_forgetLine (stack : Stack) : stack.forgetLine.outline = stack.outline := by
  simp [outline, forgetLine, frames, forgetFrame]

/-- A rule that is left goes from the top, unless it is the only one. -/
theorem outline_left (same : stack.outline = (depth, rule, ending) :: below) (more : below ≠ []) :
    stack.closing.pop.outline = below := by
  obtain ⟨top, rest⟩ := stack
  simp only [outline, frames, List.map_cons, List.cons.injEq] at same
  cases rest with
  | nil => exact absurd same.2.symm more
  | cons => exact same.2

end Stack

/-- A rule that is entered comes on top. Its end is resolved if it refers to its start. -/
theorem Line.outline_enteredStack {σ : Type} (scanner : Line.Scanner σ) (line : SourceLine)
    (cursor : Line.Cursor) (found : Line.Match) (id : RuleId) (rule : Line.Spanning) :
    (Line.enteredStack scanner line cursor found id rule).outline =
      (cursor.stack.depth + 1, id, if rule.endingHasReferences then
        some (resolve ((scanner.grammar.patterns[rule.ending]?.map Pattern.source).getD "") line
          found.spans).1 else none) :: cursor.stack.outline := by
  unfold Line.enteredStack
  simp only
  split <;> rfl

namespace Tokenizer

theorem toList_lineOf (text : String) : (lineOf text).text.toList = text.toList ++ ['\n'] := by
  simp [lineOf, SourceLine.ofText]

variable (tokenizer : Tokenizer)

theorem outline_scanLine (engine : Engine) (theme : Theme) (state : Option Stack) (text : String)
    (clock : Clock) (store : Store) :
    (tokenizer.scanLine engine theme state text clock store).1.state.outline =
      (tokenizer.outcome engine theme state text clock store).stack.outline := by
  rw [scanLine_eq]
  exact Stack.outline_forgetLine _

theorem outline_startStack_none (theme : Theme) :
    (tokenizer.startStack theme none).outline = [(1, tokenizer.grammar.root, none)] := rfl

theorem outline_startStack_some (theme : Theme) (state : Stack) :
    (tokenizer.startStack theme (some state)).outline = state.outline :=
  state.outline_forgetLine

/-- The scan of a line that is pursued from its start ends as it should. -/
theorem outcome_pursued {engine : Engine} {store : Store}
    {attempts : Line.Target → SourceLine → Nat → Option Spans} {Good : Line.Cursor → Prop}
    {Ends : Stack → Prop} (serves : store.Serves engine tokenizer.grammar)
    (alone : tokenizer.grammar.injections = [])
    (blockless : ∀ id rule, tokenizer.grammar.rule id ≠ .block rule) (theme : Theme)
    (state : Option Stack) (text : String)
    (pursuit : Line.Pursuit engine tokenizer.grammar (tokenizer.styling theme) (lineOf text) attempts
      Good Ends)
    (good : Good (.atStart (tokenizer.startStack theme state) state.isNone)) :
    Ends (tokenizer.outcome engine theme state text (fun _ => false) store).stack := by
  have start := Line.checkConditions_eq
    (tokenizer.scannerWith theme (Line.rememberingFinder engine tokenizer.grammar)) blockless
  unfold outcome outcomeWith Line.scan
  simp only [start]
  exact pursuit.scanFrom alone (List.mem_singleton_self _) _ good (.start serves Nat.zero_lt_one)
    (Line.byteSize_lt_stepBound _ _ _)

end Tokenizer
end ScopeLexer

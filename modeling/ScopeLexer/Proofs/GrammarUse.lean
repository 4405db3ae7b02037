import ScopeLexer.Proofs.CompilerGrowth
import ScopeLexer.Proofs.EngineLaws
import ScopeLexer.Proofs.ScanSimulation
import ScopeLexer.Proofs.WorkspaceFidelity
import ScopeLexer.Tokenizer

/-! A grammar in use. Its store comes from the compiler and goes from line to
line, and part of it may be shared by tokenizers of the same rules; whatever
was tokenized before, it serves the grammar. Two scans with such stores, from
stacks that are alike, stay in step: the sets of patterns that they build and
keep are the same. The states that a line can be tokenized from are those that
lines before it have left. -/
namespace ScopeLexer

open Grammar Pattern Regex

namespace Line

section

variable {engine : Engine} {grammar : CompiledGrammar} {known : List SourceLine}

theorem findNext_alike (alike : stack.Alike strict other) (line : SourceLine) (pos : Nat)
    (flavour : Flavour) (workspace : Workspace) :
    findNext engine grammar line pos flavour stack workspace =
      findNext engine grammar line pos flavour other workspace := by
  rw [findNext, findNext, alike.rule, alike.ending, alike.contentScopes]

theorem findCondition_alike {frame other : Frame}
    (same : frame.compared strict = other.compared strict) (line : SourceLine) (pos : Nat)
    (flavour : Flavour) (workspace : Workspace) :
    findCondition engine grammar line pos flavour frame workspace =
      findCondition engine grammar line pos flavour other workspace := by
  have rule := congrArg Frame.rule same
  have ending := congrArg Frame.ending same
  simp only [Frame.compared] at rule ending
  rw [findCondition, findCondition, rule, ending]

/-- The same has been done, with stores that serve the grammar. -/
structure Work.Twins (engine : Engine) (grammar : CompiledGrammar) (known : List SourceLine)
    (left right : Work Workspace) : Prop where
  pieces : left.pieces = right.pieces
  lineCount : left.lineCount = right.lineCount
  outOfSteps : left.outOfSteps = right.outOfSteps
  faithful : left.finder.Faithful engine grammar known left.lineCount
  finders : left.finder.Twins engine grammar right.finder

/-- Before the first step nothing has been done. -/
theorem Work.Twins.start {first second : Store} (servesFirst : first.Serves engine grammar)
    (servesSecond : second.Serves engine grammar) {line : SourceLine} (number : line.id < 1) :
    Work.Twins engine grammar [line] { finder := { store := first } }
      { finder := { store := second } } :=
  ⟨rfl, rfl, rfl, .start servesFirst number, servesFirst, servesSecond, rfl, rfl⟩

/-- Scans with stores that serve the grammar. -/
def twinScans (engine : Engine) (grammar : CompiledGrammar) (styling : Styling) :
    Simulation Workspace Workspace where
  strict := false
  grammar := grammar
  styling := styling
  left := rememberingFinder engine grammar
  right := rememberingFinder engine grammar
  Cut _ _ := True
  Related := Work.Twins engine grammar
  whole _ := trivial
  sameCount twins := twins.lineCount
  next {known a b line stack other} pos flavour twins member alike _ := by
    have kept := twins.faithful.findNext member pos flavour stack
    obtain ⟨same, finders⟩ := twins.finders.findNext line pos flavour stack
    simp only [rememberingFinder, ← findNext_alike alike]
    exact ⟨same, ⟨twins.pieces, twins.lineCount, twins.outOfSteps, kept, finders⟩,
      fun found _ => ⟨trivial, trivial, fun _ _ _ => ⟨trivial, trivial⟩⟩⟩
  condition {known a b line frame other} pos flavour twins member same _ := by
    have kept := twins.faithful.findCondition member pos flavour frame
    obtain ⟨answers, finders⟩ := twins.finders.findCondition line pos flavour frame
    simp only [rememberingFinder, ← findCondition_alike same]
    exact ⟨answers, ⟨twins.pieces, twins.lineCount, twins.outOfSteps, kept, finders⟩,
      fun found _ => ⟨trivial, trivial, fun _ _ _ => ⟨trivial, trivial⟩⟩⟩
  warn warning twins :=
    ⟨twins.pieces, twins.lineCount, twins.outOfSteps, twins.faithful.warn warning,
      twins.finders.warn warning⟩
  produce scopes twins member _ :=
    ⟨by simp only [Work.produce, twins.pieces], twins.lineCount, twins.outOfSteps, twins.faithful,
      twins.finders⟩
  divide twins member _ :=
    ⟨twins.pieces, congrArg (· + 1) twins.lineCount, twins.outOfSteps,
      twins.faithful.divide rfl, twins.finders⟩
  forget twins :=
    ⟨twins.pieces, twins.lineCount, twins.outOfSteps, twins.faithful.forget, twins.finders⟩

theorem twinScans_exhausts (engine : Engine) (grammar : CompiledGrammar) (styling : Styling) :
    (twinScans engine grammar styling).Exhausts := by
  intro known a b twins
  have twins : Work.Twins engine grammar known a b := twins
  exact Work.Twins.mk twins.pieces twins.lineCount rfl twins.faithful twins.finders

end
end Line

namespace Stack

theorem Alike.forgetLine (alike : Alike left strict right) :
    Alike left.forgetLine strict right.forgetLine := by
  have commutes (stack : Stack) :
      stack.forgetLine.compared strict = (stack.compared strict).forgetLine := by
    simp only [Stack.forgetLine, compared, List.map_map]
    rfl
  rw [Alike, commutes, commutes, alike]

/-- Between lines, no frame knows of a byte. -/
theorem of_forgetLine {stack : Stack} (forgotten : stack.forgetLine = stack)
    (member : frame ∈ stack.frames) : frame.enteredAt = none ∧ frame.anchor = none := by
  have frames : stack.frames.map forgetFrame = stack.frames := congrArg Stack.frames forgotten
  rw [← frames] at member
  obtain ⟨before, _, rfl⟩ := List.mem_map.mp member
  exact ⟨rfl, rfl⟩

end Stack

namespace Tokenizer

/-- The scanner for a theme, with some way to find matches. -/
def scannerWith {σ : Type} (tokenizer : Tokenizer) (theme : Theme) (finder : Line.Finder σ) :
    Line.Scanner σ :=
  ⟨tokenizer.grammar, tokenizer.styling theme, finder⟩

/-- The stack from which a line is scanned. -/
def startStack (tokenizer : Tokenizer) (theme : Theme) (state : Option Stack) : Stack :=
  (state.map Stack.forgetLine).getD (tokenizer.initialState theme)

theorem startStack_forgetLine (tokenizer : Tokenizer) (theme : Theme) (state : Option Stack) :
    (tokenizer.startStack theme state).forgetLine = tokenizer.startStack theme state := by
  cases state with
  | none => rfl
  | some stack => exact stack.forgetLine_forgetLine

/-- What the scan of a line comes to, with some way to find matches. -/
def outcomeWith {σ : Type} (tokenizer : Tokenizer) (theme : Theme) (finder : Line.Finder σ)
    (state : Option Stack) (text : String) (clock : Clock) (work : σ) : Line.Outcome σ :=
  Line.scan (tokenizer.scannerWith theme finder) tokenizer.depth clock (lineOf text) state.isNone
    (tokenizer.startStack theme state) { finder := work }

/-- What the scan of a line comes to. -/
def outcome (tokenizer : Tokenizer) (engine : Engine) (theme : Theme) (state : Option Stack)
    (text : String) (clock : Clock) (store : Store) : Line.Outcome Line.Workspace :=
  tokenizer.outcomeWith theme (Line.rememberingFinder engine tokenizer.grammar) state text clock
    { store := store }

theorem scanWith_eq {σ : Type} (tokenizer : Tokenizer) (theme : Theme) (finder : Line.Finder σ)
    (state : Option Stack) (text : String) (clock : Clock) (work : σ) :
    tokenizer.scanWith theme finder state text clock work =
      let outcome := tokenizer.outcomeWith theme finder state text clock work
      ({ line := lineOf text
         pieces := outcome.work.pieces
         state := outcome.stack.forgetLine
         stoppedEarly := outcome.stoppedEarly
         packing := tokenizer.packing },
        outcome.work.finder) := rfl

theorem scanLine_eq (tokenizer : Tokenizer) (engine : Engine) (theme : Theme)
    (state : Option Stack) (text : String) (clock : Clock) (store : Store) :
    tokenizer.scanLine engine theme state text clock store =
      let outcome := tokenizer.outcome engine theme state text clock store
      ({ line := lineOf text
         pieces := outcome.work.pieces
         state := outcome.stack.forgetLine
         stoppedEarly := outcome.stoppedEarly
         packing := tokenizer.packing },
        outcome.work.finder.store) := rfl

variable {tokenizer : Tokenizer} {engine : Engine}

/-- Lines tokenized with stores that serve the grammar, from states that start
the scan alike, give the same and leave such stores. -/
theorem outcome_twins {first second : Store}
    (servesFirst : first.Serves engine tokenizer.grammar)
    (servesSecond : second.Serves engine tokenizer.grammar)
    (alike : (tokenizer.startStack theme state).Alike false (tokenizer.startStack theme other))
    (lineEnd : (tokenizer.startStack theme state).top.tookLineEnd =
      (tokenizer.startStack theme other).top.tookLineEnd)
    (isFirst : state.isNone = other.isNone) (text : String) (clock : Clock) :
    (tokenizer.outcome engine theme state text clock first).stack.Alike false
        (tokenizer.outcome engine theme other text clock second).stack ∧
      (tokenizer.outcome engine theme state text clock first).stoppedEarly =
        (tokenizer.outcome engine theme other text clock second).stoppedEarly ∧
      Line.Work.Twins engine tokenizer.grammar [lineOf text]
        (tokenizer.outcome engine theme state text clock first).work
        (tokenizer.outcome engine theme other text clock second).work := by
  have related : Line.Work.Twins engine tokenizer.grammar [lineOf text]
      { finder := { store := first } } { finder := { store := second } } :=
    .start servesFirst servesSecond Nat.zero_lt_one
  unfold outcome outcomeWith
  rw [isFirst]
  exact Line.Simulation.scan_related
    (Line.twinScans_exhausts engine tokenizer.grammar (tokenizer.styling theme)) related
    (List.mem_singleton_self _) alike lineEnd tokenizer.depth clock _ trivial

end Tokenizer

/-- The stores that the scans of lines with a grammar are given. -/
inductive InUse (engine : Engine) (grammar : CompiledGrammar) : Store → Prop where
  /-- The grammar has just been compiled. -/
  | compiled {compilation : Compilation}
    (compiles : (compile scopeName grammars injectors engine journal).1 = .ok compilation)
    (same : compilation.grammar = grammar) (noted : Journal) :
    InUse engine grammar { patterns := compilation.patterns, journal := noted }
  /-- A line has been tokenized. -/
  | scanned {store : Store} (tokenizer : Tokenizer) (same : tokenizer.grammar = grammar)
    (theme : Theme) (state : Option Stack) (text : String) (clock : Clock)
    (used : InUse engine grammar store) :
    InUse engine grammar (tokenizer.scanLine engine theme state text clock store).2
  /-- Tokenizers share the patterns of the grammar, and each has resolved ones of its own. -/
  | shared {store other : Store} (used : InUse engine grammar store)
    (also : InUse engine grammar other) (noted : Journal) :
    InUse engine grammar
      { patterns := store.patterns, resolved := other.resolved, journal := noted }

namespace InUse

variable {engine : Engine} {grammar : CompiledGrammar} {store : Store}

theorem serves (used : InUse engine grammar store) : store.Serves engine grammar := by
  induction used with
  | compiled compiles same noted =>
    subst same
    exact (compile_serves (Prod.ext compiles rfl)).2 noted
  | scanned tokenizer same theme state text clock used ih =>
    subst same
    exact (tokenizer.outcome_twins ih ih (.refl _) rfl rfl text clock).2.2.faithful.serves
  | shared used also noted ihUsed ihAlso =>
    exact ⟨ihUsed.patterns, ihUsed.sound, ihAlso.resolved⟩

/-- The top level of a grammar in use is a list of rules. -/
theorem root (used : InUse engine grammar store) :
    ∃ rule, grammar.rule grammar.root = .group rule := by
  induction used with
  | compiled compiles same noted =>
    subst same
    exact (compile_serves (Prod.ext compiles rfl)).1
  | scanned tokenizer same theme state text clock used ih => exact ih
  | shared used also noted ihUsed ihAlso => exact ihUsed

end InUse

/-- A result that can be read off is that of a success. -/
theorem eq_ok_of_toOption {result : Except ε α} {value : α} (held : result.toOption = some value) :
    result = .ok value := by
  cases result with
  | error reason => cases held
  | ok other => exact congrArg Except.ok (Option.some.inj held)

/-- A grammar that has been compiled is in use. -/
theorem InUse.of_toOption {compilation : Compilation}
    (compiles : (compile scopeName grammars injectors engine journal).1.toOption = some compilation) :
    InUse engine compilation.grammar { patterns := compilation.patterns } :=
  .compiled (eq_ok_of_toOption compiles) rfl {}

/-- The states that a line can be tokenized from: none, for the first, and what
tokenizing a line leaves, under any of some themes. -/
inductive Tokenizer.Reached (tokenizer : Tokenizer) (engine : Engine) (themes : Theme → Prop) :
    Option Stack → Prop where
  | start : Reached tokenizer engine themes none
  | line {store : Store} (allowed : themes theme) (used : InUse engine tokenizer.grammar store)
    (reached : Reached tokenizer engine themes state) (text : String) (clock : Clock) :
    Reached tokenizer engine themes
      (some (tokenizer.scanLine engine theme state text clock store).1.state)

namespace Tokenizer.Reached

variable {tokenizer : Tokenizer} {engine : Engine} {themes : Theme → Prop} {state : Option Stack}
  {Holds : Stack → Prop}

/-- What the first stack has, and what outlasts every step and the end of a
line, the stack of every line has. -/
theorem holds (reached : Reached tokenizer engine themes state)
    (invariant : ∀ theme, Line.StackInvariant
      (tokenizer.scannerWith theme (Line.rememberingFinder engine tokenizer.grammar)) Holds)
    (initial : ∀ theme, Holds (tokenizer.initialState theme))
    (forget : ∀ stack, Holds stack → Holds stack.forgetLine) (theme : Theme) :
    Holds (tokenizer.startStack theme state) := by
  induction reached generalizing theme with
  | start => exact initial theme
  | line allowed used reached text clock ih =>
    exact forget _ (forget _ ((invariant _).scan (ih _) tokenizer.depth clock _ _ _))

end Tokenizer.Reached

namespace Sample

/-- A grammar with a region whose start may take the line end, and inside it a
rule that holds only where the last match ended. -/
def source : GrammarSource where
  scopeName := "source.x"
  patterns := [1]
  rules := #[{ matchPattern := some "\\Gz", name := some "first" },
    { beginPattern := some "x\\n?", endPattern := some "y", patterns := some [0] }]

@[irreducible]
def compilation : Compilation :=
  (compile "source.x" ⟨[("source.x", source)]⟩ [] backtracking {}).1.toOption.get
    (by decide +kernel)

def tokenizer : Tokenizer := { serial := 0, rulesSerial := 1, grammar := compilation.grammar }

/-- The store of the grammar before the first line. -/
def store : Store := { patterns := compilation.patterns }

theorem compiles :
    (compile "source.x" ⟨[("source.x", source)]⟩ [] backtracking {}).1.toOption =
      some compilation := by
  rw [compilation, Option.some_get]

theorem inUse : InUse backtracking tokenizer.grammar store := .of_toOption compiles

end Sample

namespace EmptyStarts

/-- A grammar with two regions that start with nothing, one inside the other. -/
def source : GrammarSource where
  scopeName := "source.e"
  patterns := [2]
  rules := #[{ matchPattern := some "c", name := some "letter" },
    { beginPattern := some "", endPattern := some "b", patterns := some [0], name := some "inner" },
    { beginPattern := some "", endPattern := some "a", patterns := some [1], name := some "outer" }]

/-- The grammar, compiled by the engine that takes patterns literally. -/
@[irreducible]
def compilation : Compilation :=
  (compile "source.e" ⟨[("source.e", source)]⟩ [] literal {}).1.toOption.get (by decide +kernel)

def tokenizer : Tokenizer := { serial := 0, rulesSerial := 1, grammar := compilation.grammar }

/-- The store of the grammar before the first line. -/
def store : Store := { patterns := compilation.patterns }

theorem compiles :
    (compile "source.e" ⟨[("source.e", source)]⟩ [] literal {}).1.toOption = some compilation := by
  rw [compilation, Option.some_get]

theorem inUse : InUse literal tokenizer.grammar store := .of_toOption compiles

end EmptyStarts
end ScopeLexer

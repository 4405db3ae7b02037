import ScopeLexer.Proofs.HeredocRegions

/-! What is remembered shows nowhere. A set of patterns that remembers its
searches answers every question as one that searches afresh, and a line is
tokenized as by a tokenizer that builds every set anew for every match it looks
for and remembers nothing: the scan with the one finder and the scan with the
other stay in step. -/
namespace ScopeLexer

open Grammar Pattern Regex

namespace Line

section

variable {engine : Engine} {grammar : CompiledGrammar}

/-- The same has been done by a scan that remembers and by one that does not. -/
structure Work.Mirrored (engine : Engine) (grammar : CompiledGrammar) (known : List SourceLine)
    (left : Work Workspace) (right : Work Unit) : Prop where
  pieces : left.pieces = right.pieces
  lineCount : left.lineCount = right.lineCount
  outOfSteps : left.outOfSteps = right.outOfSteps
  faithful : left.finder.Faithful engine grammar known left.lineCount

theorem nextAfresh_alike (alike : stack.Alike strict other) (line : SourceLine) (pos : Nat)
    (flavour : Flavour) :
    nextAfresh engine grammar line pos flavour stack =
      nextAfresh engine grammar line pos flavour other := by
  rw [nextAfresh, nextAfresh, alike.rule, alike.ending, alike.contentScopes]

variable (engine grammar) in
/-- A scan that remembers and one that does not stay in step, for as long as the sets that the one
has built are steady. -/
def mirroredScans (styling : Styling) : Simulation Workspace Unit where
  strict := true
  grammar := grammar
  styling := styling
  left := rememberingFinder engine grammar
  right := rebuildingFinder engine grammar
  Cut _ _ := True
  Related := Work.Mirrored engine grammar
  Sound := Workspace.Steady
  whole _ := trivial
  sameCount mirrored := mirrored.lineCount
  next {known a b line stack other} pos flavour mirrored member alike steady := by
    have kept := mirrored.faithful.findNext member pos flavour stack
    have answer := mirrored.faithful.findNext_afresh member pos flavour stack
      fun key _ keeps => kept.steadyRules steady keeps
    simp only [rememberingFinder, rebuildingFinder, ← nextAfresh_alike alike]
    exact ⟨answer, ⟨mirrored.pieces, mirrored.lineCount, mirrored.outOfSteps, kept⟩,
      fun found _ => ⟨trivial, trivial, fun _ _ _ => ⟨trivial, trivial⟩⟩⟩
  condition {known a b line frame other} pos flavour mirrored member same steady := by
    have kept := mirrored.faithful.findCondition member pos flavour frame
    have answer := mirrored.faithful.findCondition_afresh member pos flavour frame
      (kept.steadyConditions steady (findCondition_keeps ..))
    have rule := congrArg Frame.rule same
    have ending := congrArg Frame.ending same
    simp only [Frame.compared] at rule ending
    simp only [rememberingFinder, rebuildingFinder, ← rule, ← ending]
    exact ⟨answer, ⟨mirrored.pieces, mirrored.lineCount, mirrored.outOfSteps, kept⟩,
      fun found _ => ⟨trivial, trivial, fun _ _ _ => ⟨trivial, trivial⟩⟩⟩
  warn warning mirrored :=
    ⟨mirrored.pieces, mirrored.lineCount, mirrored.outOfSteps, mirrored.faithful.warn warning⟩
  produce scopes mirrored member _ :=
    ⟨by simp only [Work.produce, mirrored.pieces], mirrored.lineCount, mirrored.outOfSteps,
      mirrored.faithful⟩
  divide mirrored member _ :=
    ⟨mirrored.pieces, congrArg (· + 1) mirrored.lineCount, mirrored.outOfSteps,
      mirrored.faithful.divide rfl⟩
  forget mirrored :=
    ⟨mirrored.pieces, mirrored.lineCount, mirrored.outOfSteps, mirrored.faithful.forget⟩
  sound_next := Workspace.Steady.before_findNext
  sound_condition := Workspace.Steady.before_findCondition
  sound_warn steady := ⟨steady.rules, steady.conditions⟩

theorem mirroredScans_exhausts (styling : Styling) :
    (mirroredScans engine grammar styling).Exhausts := by
  intro known a b mirrored
  have mirrored : Work.Mirrored engine grammar known a b := mirrored
  exact Work.Mirrored.mk mirrored.pieces mirrored.lineCount rfl mirrored.faithful

end
end Line

/-- Tokenizing a line gives what a tokenizer gives that rebuilds every set of
patterns for every match it looks for, if the sets built for the line are steady. -/
theorem Tokenizer.scanLine_rebuilding (tokenizer : Tokenizer) {engine : Engine} {store : Store}
    (used : InUse engine tokenizer.grammar store) (theme : Theme) (state : Option Stack)
    (text : String) (clock : Clock)
    (steady : (tokenizer.outcome engine theme state text clock store).work.finder.Steady) :
    (tokenizer.scanLine engine theme state text clock store).1 =
      (tokenizer.scanWith theme (Line.rebuildingFinder engine tokenizer.grammar) state text clock
        ()).1 := by
  have related : Line.Work.Mirrored engine tokenizer.grammar [lineOf text]
      { finder := { store := store } } { finder := () } :=
    ⟨rfl, rfl, rfl, .start used.serves Nat.zero_lt_one⟩
  obtain ⟨ends, early, works⟩ := Line.Simulation.scan_related
    (Line.mirroredScans_exhausts (tokenizer.styling theme)) related
    (List.mem_singleton_self _) (.refl (tokenizer.startStack theme state)) rfl tokenizer.depth clock
    state.isNone steady
  have sameStack : (tokenizer.outcome engine theme state text clock store).stack =
      (tokenizer.outcomeWith theme (Line.rebuildingFinder engine tokenizer.grammar) state text clock
        ()).stack := ends.eq
  have samePieces : (tokenizer.outcome engine theme state text clock store).work.pieces =
      (tokenizer.outcomeWith theme (Line.rebuildingFinder engine tokenizer.grammar) state text clock
        ()).work.pieces := works.pieces
  have sameEarly : (tokenizer.outcome engine theme state text clock store).stoppedEarly =
      (tokenizer.outcomeWith theme (Line.rebuildingFinder engine tokenizer.grammar) state text clock
        ()).stoppedEarly := early
  rw [scanLine_eq, scanWith_eq]
  simp only [sameStack, samePieces, sameEarly]

/-- Memos show nowhere. Whatever lines and bytes a set of patterns is asked for,
one after the other, its answers are those of a set that searches afresh with
every pattern; and tokenizing a line gives the same tokens and the same state as
a tokenizer that rebuilds every set at every step and remembers nothing. The
patterns of the set are steady, or those of the sets built for the line. -/
theorem memos_never_show (tokenizer : Tokenizer) {engine : Engine} {store : Store}
    (used : InUse engine tokenizer.grammar store) :
    (∀ (set : Line.PatternSet) (questions : List (SourceLine × Nat)),
      (∀ entry ∈ set.entries, entry.memo = none) → (∀ entry ∈ set.entries, entry.Steady) →
      Line.Distinct (questions.map Prod.fst) →
      set.findEach questions =
        questions.map fun question => set.findAfresh question.1 question.2) ∧
    ∀ theme state text clock,
      (tokenizer.outcome engine theme state text clock store).work.finder.Steady →
      (tokenizer.scanLine engine theme state text clock store).1 =
        (tokenizer.scanWith theme (Line.rebuildingFinder engine tokenizer.grammar) state text clock
          ()).1 := by
  refine ⟨?_, tokenizer.scanLine_rebuilding used⟩
  intro set questions fresh steadySet distinct
  have honest : ∀ entry ∈ set.entries, entry.Honest (questions.map Prod.fst) := by
    intro entry member memo held
    rw [fresh entry member] at held
    cases held
  exact Line.PatternSet.findEach_eq questions honest steadySet distinct
    fun question member => List.mem_map_of_mem member

/-- The sets that are kept are steady if the contenders of the rules that they were built for are sound,
where no conditions were asked for. -/
theorem Line.Workspace.Faithful.steady_of_sound {engine : Engine} {grammar : CompiledGrammar}
    {known : List SourceLine} {count : Nat} {workspace : Line.Workspace}
    (faithful : workspace.Faithful engine grammar known count)
    (unconditional : workspace.conditionSets.entries = [])
    (sound : ∀ key ∈ workspace.ruleSets.entries.map Prod.fst,
      ∀ contender ∈ Line.ruleContenders grammar key.rule key.ending,
        contender.Sound engine key.flavour) : workspace.Steady where
  rules key set held := by
    obtain ⟨before, after, entries, -⟩ := List.lookup_eq_some_iff.mp held
    have asked : key ∈ workspace.ruleSets.entries.map Prod.fst := by simp [entries]
    exact (faithful.rules key set held).steady_iff.mpr
      (Line.steady_of_taken (Line.taken_rebuiltRuleSet ..) (sound key asked))
  conditions key set held := by
    rw [Dictionary.get?, unconditional] at held
    cases held

namespace Memos

/-- The grammar of a region that ends at the word it was started with, compiled. -/
@[irreducible]
def compilation : Compilation :=
  (compile "source.x" ⟨[("source.x", Heredoc.source "source.x" none none)]⟩ [] backtracking
    {}).1.toOption.get (by decide +kernel)

def tokenizer : Tokenizer := { serial := 0, rulesSerial := 1, grammar := compilation.grammar }

/-- The store of the grammar before the first line. -/
def store : Store := { patterns := compilation.patterns }

theorem inUse : InUse backtracking tokenizer.grammar store :=
  .of_toOption (by rw [compilation, Option.some_get])

/-- The state after a line that starts a region. -/
def opened : Stack := (tokenizer.scanLine backtracking .plain none "<<EOF" (fun _ => false) store).1.state

theorem sound (contender : Line.Contender)
    (one : contender = Heredoc.opening ∨ contender = Heredoc.closing "EOF") (flavour : Flavour) :
    contender.Sound backtracking flavour := by
  have isWord : Heredoc.IsWord "EOF" := ⟨by decide, List.all_eq_true.mp (by decide)⟩
  rcases one with rfl | rfl
  · obtain ⟨searcher, takes, finds⟩ := Heredoc.compile_start readsWords_backtracking
    exact .of_findsFirst (searcher_of_compile takes flavour) finds
  · obtain ⟨searcher, takes, finds⟩ := Heredoc.compile_ending readsWords_backtracking isWord
    exact .of_findsFirst (searcher_of_compile takes flavour) finds

/-- The sets that are built for a line that ends the region. -/
theorem steady :
    (tokenizer.outcome backtracking .plain (some opened) "EOF" (fun _ => false)
      store).work.finder.Steady := by
  have faithful := (tokenizer.outcome_twins (inUse.serves) (inUse.serves)
    (.refl (tokenizer.startStack .plain (some opened))) rfl rfl "EOF" fun _ => false).2.2.faithful
  have contenders : ∀ key ∈ (tokenizer.outcome backtracking .plain (some opened) "EOF"
      (fun _ => false) store).work.finder.ruleSets.entries.map Prod.fst,
      ∀ contender ∈ Line.ruleContenders tokenizer.grammar key.rule key.ending,
        contender = Heredoc.opening ∨ contender = Heredoc.closing "EOF" := by
    decide +kernel
  exact faithful.steady_of_sound (by decide +kernel) fun key asked contender member =>
    sound contender (contenders key asked contender member) key.flavour

end Memos

/-- A set that is asked behind its last answer again, and a line that ends the region, for which two
sets are built. -/
theorem memos_never_show_heredoc :
    let set : Line.PatternSet := ⟨[Heredoc.opening.entry backtracking .both,
      (Heredoc.closing "EOF").entry backtracking .both]⟩
    let line := Tokenizer.lineOf "<<A <<B"
    let outcome := Memos.tokenizer.outcome backtracking .plain (some Memos.opened) "EOF"
      (fun _ => false) Memos.store
    InUse backtracking Memos.tokenizer.grammar Memos.store ∧ outcome.work.finder.Steady ∧
      outcome.work.finder.ruleSets.size = 2 ∧
      set.findEach [(line, 2), (line, 0), (line, 5), (line, 1)] =
        [set.findAfresh line 2, set.findAfresh line 0, set.findAfresh line 5,
          set.findAfresh line 1] ∧
      (Memos.tokenizer.scanLine backtracking .plain (some Memos.opened) "EOF" (fun _ => false)
          Memos.store).1 =
        (Memos.tokenizer.scanWith .plain
          (Line.rebuildingFinder backtracking Memos.tokenizer.grammar) (some Memos.opened) "EOF"
          (fun _ => false) ()).1 := by
  obtain ⟨sets, lines⟩ := memos_never_show Memos.tokenizer Memos.inUse
  refine ⟨Memos.inUse, Memos.steady, by decide +kernel, sets _ _ ?_ ?_ ?_,
    lines .plain (some Memos.opened) "EOF" _ Memos.steady⟩
  · simp [Line.Contender.entry]
  · intro entry member
    simp only [List.mem_cons, List.not_mem_nil, or_false] at member
    rcases member with rfl | rfl
    · exact (Memos.sound _ (.inl rfl) .both).steady
    · exact (Memos.sound _ (.inr rfl) .both).steady
  · intro first member second also _
    simp only [List.map_cons, List.map_nil, List.mem_cons, List.not_mem_nil, or_false, or_self]
      at member also
    rw [member, also]

end ScopeLexer

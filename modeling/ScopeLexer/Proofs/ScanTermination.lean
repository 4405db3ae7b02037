import ScopeLexer.Proofs.GrammarUse
import ScopeLexer.Proofs.ScanProgress

/-! The scan of a line comes to an end. Where no group is scanned again and no
region is injected, an end that is found belongs to the rule at the top, and the
matches of an engine that stays inside the text never lead past the end of the
line. From every state that lines before it can leave, the scan of a line then
makes progress with every step, and never meets the bound on its steps. -/
namespace ScopeLexer

open Grammar Pattern Regex

namespace Line

section Targets

variable {engine : Engine} {grammar : CompiledGrammar}

/-- What a match of a pattern of the set of a rule leads to: a rule of the
grammar, or the end of the rule, if it has one. -/
def Target.Of (grammar : CompiledGrammar) (rule : RuleId) : Target → Prop
  | .enter id => id < grammar.rules.size
  | .leave => ∃ region, grammar.rule rule = .region region

theorem size_of_entryPattern {id : RuleId}
    (pattern : (grammar.rule id).entryPattern = some start) : id < grammar.rules.size := by
  by_cases bound : id < grammar.rules.size
  · exact bound
  · rw [CompiledGrammar.rule, Array.getElem?_eq_none (Nat.le_of_not_lt bound)] at pattern
    cases pattern

variable (engine) (grammar) in
/-- The entries of rules lead into one of them, or out of the rule that is on top. -/
theorem entriesOf_target (flavour : Flavour) (rules : List RuleId) (store : Store) (rule : RuleId) :
    ∀ entry ∈ (entriesOf engine grammar flavour rules store).1, entry.target.Of grammar rule := by
  induction rules generalizing store with
  | nil =>
    intro entry member
    cases member
  | cons id rules ih =>
    intro entry member
    rcases List.mem_append.mp member with first | later
    · cases pattern : (grammar.rule id).entryPattern with
      | none => simp [pattern] at first
      | some start =>
        simp only [pattern, Option.toList_some, List.mem_singleton] at first
        rw [first]
        exact size_of_entryPattern pattern
    · exact ih _ entry later

/-- A match of the set for a rule leads into one of its candidates, or out of it. -/
theorem rebuiltRuleSet_target (key : SetKey) :
    ∀ entry ∈ (rebuiltRuleSet engine grammar key).entries, entry.target.Of grammar key.rule := by
  have entries := entriesOf_target engine grammar key.flavour (grammar.candidates key.rule)
    (.untouched grammar) key.rule
  intro entry member
  unfold rebuiltRuleSet buildRuleSet at member
  cases rule : grammar.rule key.rule with
  | region region =>
    have ending (entry : Entry) (same : entry.target = .leave) :
        entry.target.Of grammar key.rule := by
      rw [same]
      exact ⟨region, rule⟩
    simp only [rule] at member
    split at member
    · rcases List.mem_append.mp member with inside | last
      · exact entries entry inside
      · rw [List.mem_singleton.mp last]
        exact ending _ rfl
    · rcases List.mem_cons.mp member with rfl | inside
      · exact ending _ rfl
      · exact entries entry inside
  | single | group | block | capture | reserved =>
    simp only [rule] at member
    exact entries entry member

theorem Entry.Finds.stop_le {entry : Entry} (inside : engine.StaysInside)
    (fresh : entry.Fresh engine) (finds : entry.Finds line pos made) :
    made.stop ≤ line.byteSize ∧ made.target = entry.target := by
  obtain ⟨start, spans, _, _, searched, matched⟩ := finds
  obtain ⟨searcher, compiled, searched⟩ := Option.bind_eq_some_iff.mp searched
  obtain ⟨whole, _, target⟩ := Entry.start_of_toMatch matched
  exact ⟨(inside searcher (fresh.made searcher compiled) line start spans _ searched whole).2.2,
    target⟩

/-- If no region is injected, an end that is found is that of the rule at the top. -/
theorem Sighted.fits (inside : engine.StaysInside)
    (injected : ∀ injection ∈ grammar.injections, ∀ region,
      grammar.rule injection.rule ≠ .region region)
    (sighted : Sighted engine grammar line pos flavour stack made) :
    made.Fits grammar line stack := by
  obtain ⟨key, asked, entry, member, finds⟩ := sighted
  obtain ⟨stop, same⟩ := finds.stop_le inside (rebuiltRuleSet_fresh engine grammar key entry member)
  have target := rebuiltRuleSet_target key entry member
  rw [← same] at target
  refine ⟨stop, fun leaves => ?_, fun id enters => ?_⟩
  · rw [leaves] at target
    obtain ⟨region, isRegion⟩ := target
    rcases asked with rfl | ⟨injection, among, rfl⟩
    · exact ⟨region, isRegion⟩
    · exact absurd isRegion (injected injection among region)
  · rw [enters] at target
    exact target

end Targets

section Guarded

variable {engine : Engine} {grammar : CompiledGrammar} {known : List SourceLine} {line : SourceLine}

/-- The scanner that remembers the sets it has built. -/
def remembering (engine : Engine) (grammar : CompiledGrammar) (styling : Styling) :
    Scanner Workspace :=
  ⟨grammar, styling, rememberingFinder engine grammar⟩

/-- The work of a scan with a store that serves the grammar, the bound on the
steps not being met. -/
def Work.Calm (engine : Engine) (grammar : CompiledGrammar) (known : List SourceLine)
    (work : Work Workspace) : Prop :=
  Work.Twins engine grammar known work work ∧ work.outOfSteps = false

/-- If no group is scanned again, every way to do so will do. -/
theorem follows_of_plain (plain : ∀ target, ¬ grammar.Retokenizes target) (styling : Styling)
    (rescan other : Rescan Workspace) :
    (twinScans engine grammar styling).calm.Follows rescan other where
  related _ _ retokenizes := absurd retokenizes (plain _)
  spoils _ _ _ _ _ _ spoiled := absurd trivial spoiled

theorem step_calm (plain : ∀ target, ¬ grammar.Retokenizes target) (member : line ∈ known)
    (calm : Work.Calm engine grammar known work) (styling : Styling) (rescan : Rescan Workspace)
    (cursor : Cursor) :
    Work.Calm engine grammar known
      (step (remembering engine grammar styling) rescan line cursor work).work :=
  (Simulation.step_agree (follows_of_plain plain styling rescan rescan) calm member
    (.refl cursor.stack) trivial).work

theorem checkCondition_calm (plain : ∀ target, ¬ grammar.Retokenizes target)
    (member : line ∈ known) (calm : Work.Calm engine grammar known work) (styling : Styling)
    (rescan : Rescan Workspace) (cursor : Cursor) (stack : Stack) (rule : BlockRule) :
    Work.Calm engine grammar known
      (checkCondition (remembering engine grammar styling) rescan line cursor stack rule work).2 :=
  (Simulation.checkCondition_related cursor (follows_of_plain plain styling rescan rescan) calm
    member (.refl stack) cursor.stack rule trivial).2

/-- The work of a scan stays calm, and what it finds fits. -/
theorem guards_calm (root : ∃ rule, grammar.rule grammar.root = .group rule)
    (inside : engine.StaysInside) (plain : ∀ target, ¬ grammar.Retokenizes target)
    (injected : ∀ injection ∈ grammar.injections, ∀ region,
      grammar.rule injection.rule ≠ .region region)
    (member : line ∈ known) (styling : Styling) (rescan : Rescan Workspace) :
    Guards (remembering engine grammar styling) rescan line (Work.Calm engine grammar known) where
  root := root
  fits cursor work found calm answer :=
    (calm.1.faithful.findNext_sighted member answer).fits inside injected
  next cursor work next middle calm taken := by
    have after := step_calm plain member calm styling rescan cursor
    rwa [taken] at after
  done cursor work stack final calm taken := by
    have after := step_calm plain member calm styling rescan cursor
    rw [taken] at after
    exact after.2

/-- Conditions are checked inside the line, and the work stays calm. -/
theorem checkAll_calm (inside : engine.StaysInside)
    (plain : ∀ target, ¬ grammar.Retokenizes target) (member : line ∈ known) (styling : Styling)
    (rescan : Rescan Workspace) (blocks : List (Stack × BlockRule)) {cursor : Cursor}
    (calm : Work.Calm engine grammar known work) (bound : cursor.pos ≤ line.byteSize) :
    (checkAll (remembering engine grammar styling) rescan line blocks cursor work).1.pos ≤
        line.byteSize ∧
      Work.Calm engine grammar known
        (checkAll (remembering engine grammar styling) rescan line blocks cursor work).2 := by
  induction blocks generalizing cursor work with
  | nil => exact ⟨bound, calm⟩
  | cons block blocks ih =>
    obtain ⟨stack, rule⟩ := block
    have checked := checkCondition_calm plain member calm styling rescan cursor stack rule
    have ahead (next : Cursor) (held : (checkCondition (remembering engine grammar styling) rescan
        line cursor stack rule work).1 = some next) : next.pos ≤ line.byteSize := by
      obtain ⟨found, answer, pos⟩ := pos_of_checkCondition held
      obtain ⟨entry, among, finds⟩ := calm.1.faithful.findCondition_finds member answer
      have stop := finds.stop_le inside (rebuiltConditionSet_fresh engine grammar _ entry among)
      omega
    rw [checkAll]
    generalize checkCondition (remembering engine grammar styling) rescan line cursor stack rule work =
      result at checked ahead ⊢
    obtain ⟨_ | next, left⟩ := result
    · exact ⟨bound, checked⟩
    · exact ih checked (ahead next rfl)

theorem checkConditions_calm (inside : engine.StaysInside)
    (plain : ∀ target, ¬ grammar.Retokenizes target) (member : line ∈ known)
    (calm : Work.Calm engine grammar known work) (styling : Styling) (rescan : Rescan Workspace)
    (isFirst : Bool) (stack : Stack) :
    (checkConditions (remembering engine grammar styling) rescan line isFirst stack work).1.pos ≤
        line.byteSize ∧
      Work.Calm engine grammar known
        (checkConditions (remembering engine grammar styling) rescan line isFirst stack work).2 :=
  checkAll_calm inside plain member styling rescan _ calm (Nat.zero_le _)

end Guarded
section Bottom

variable {σ : Type}

theorem mem_frames_pop {stack : Stack} (member : frame ∈ stack.pop.frames) :
    frame ∈ stack.frames := by
  obtain ⟨top, rest⟩ := stack
  cases rest with
  | nil => exact member
  | cons below rest => exact List.mem_cons_of_mem _ member

/-- No rule of a stack was entered on the line. -/
def Unentered (stack : Stack) : Prop := ∀ frame ∈ stack.frames, frame.enteredAt = none

/-- No step changes the rule at the bottom. -/
theorem bottomRule_invariant (scanner : Scanner σ) (rule : RuleId) :
    StackInvariant scanner (bottomRule · = some rule) where
  enter line cursor found id spanning holds _ := by
    obtain ⟨frames, _⟩ := enteredStack_frames scanner line cursor found id spanning
    rw [bottomRule, frames, List.getLast?_cons_of_ne_nil (by simp [Stack.frames])]
    exact holds
  close stack holds := by
    obtain ⟨top, rest⟩ := stack
    cases rest with
    | nil => exact holds
    | cons below rest => exact holds
  pop stack holds := by
    obtain ⟨top, rest⟩ := stack
    cases rest with
    | nil => exact holds
    | cons below rest => exact holds

theorem bottomRule_forgetLine (stack : Stack) : bottomRule stack.forgetLine = bottomRule stack := by
  have frames : stack.forgetLine.frames = stack.frames.map Stack.forgetFrame := rfl
  rw [bottomRule, frames, List.getLast?_map, Option.map_map]
  rfl

end Bottom
end Line

namespace Tokenizer

open Line

variable {tokenizer : Tokenizer} {engine : Engine} {state : Option Stack}

/-- The scanner of a tokenizer, for a theme. -/
def scanner (tokenizer : Tokenizer) (engine : Engine) (theme : Theme) : Scanner Workspace :=
  remembering engine tokenizer.grammar (tokenizer.styling theme)

/-- How the text of groups is scanned again. -/
def rescan (tokenizer : Tokenizer) (engine : Engine) (theme : Theme) : Rescan Workspace :=
  rescanGroup (tokenizer.scanner engine theme) tokenizer.depth

/-- Where the scan of a line starts, the conditions having been checked. -/
def started (tokenizer : Tokenizer) (engine : Engine) (theme : Theme) (state : Option Stack)
    (text : String) (store : Store) : Line.Cursor × Work Workspace :=
  checkConditions (tokenizer.scanner engine theme) (tokenizer.rescan engine theme) (lineOf text)
    state.isNone (tokenizer.startStack theme state) { finder := { store := store } }

/-- Before a line is scanned all is in order, whatever lines came before it. -/
theorem started_orderly {store : Store} (inside : engine.StaysInside)
    (plain : ∀ target, ¬ tokenizer.grammar.Retokenizes target)
    (serves : store.Serves engine tokenizer.grammar)
    (reached : tokenizer.Reached engine themes state) (theme : Theme) (text : String) :
    (tokenizer.started engine theme state text store).1.Orderly tokenizer.grammar (lineOf text) ∧
      Work.Calm engine tokenizer.grammar [lineOf text]
        (tokenizer.started engine theme state text store).2 := by
  have calm : Work.Calm engine tokenizer.grammar [lineOf text] { finder := { store := store } } :=
    ⟨.start serves serves Nat.zero_lt_one, rfl⟩
  have forgotten := tokenizer.startStack_forgetLine theme state
  have bottom : bottomRule (tokenizer.startStack theme state) = some tokenizer.grammar.root :=
    reached.holds (fun theme => bottomRule_invariant _ _) (fun theme => rfl)
      (fun stack holds => (bottomRule_forgetLine stack).trans holds) theme
  have unentered : Unentered (tokenizer.startStack theme state) :=
    fun frame member => (Stack.of_forgetLine forgotten member).1
  have popped (stack : Stack) (holds : Unentered stack) : Unentered stack.pop :=
    fun frame member => holds frame (mem_frames_pop member)
  obtain ⟨pos, left⟩ := checkConditions_calm inside plain (List.mem_singleton_self _) calm
    (tokenizer.styling theme) (tokenizer.rescan engine theme) state.isNone
    (tokenizer.startStack theme state)
  have still : Unentered (tokenizer.started engine theme state text store).1.stack :=
    checkConditions_holds popped unentered _ _ _ _
  have same : bottomRule (tokenizer.started engine theme state text store).1.stack =
      some tokenizer.grammar.root :=
    checkConditions_holds (bottomRule_invariant (tokenizer.scanner engine theme) _).pop bottom _ _ _ _
  exact ⟨.start pos still same, left⟩

/-- Steps of the scan of a line that go on, one after the other, with the cursors
they lead to. -/
def Runs (tokenizer : Tokenizer) (engine : Engine) (theme : Theme) (text : String) :
    Line.Cursor → Work Workspace → List Line.Cursor → Line.Cursor → Work Workspace → Prop :=
  Iterates (tokenizer.scanner engine theme) (tokenizer.rescan engine theme) (lineOf text)

end Tokenizer

/-- The scan of a line comes to an end. If no group is scanned again and no region
is injected, then from every state that lines have left, and without a clock, the
steps of the scan lead to one after which it is over, with what the scan comes to
and before the bound on the steps is met. However far it has come, while it stays
at a byte it leaves rules first, at most as many as are on the stack, and enters
rules then, none of them twice. -/
theorem scan_terminates (tokenizer : Tokenizer) {engine : Engine} (inside : engine.StaysInside)
    {store : Store} (used : InUse engine tokenizer.grammar store)
    (plain : ∀ id rule, tokenizer.grammar.rule id = .capture rule → rule.retokenize = none)
    (injected : ∀ injection ∈ tokenizer.grammar.injections, ∀ region,
      tokenizer.grammar.rule injection.rule ≠ .region region)
    {state : Option Stack} (reached : tokenizer.Reached engine themes state) (theme : Theme)
    (text : String) :
    let started := tokenizer.started engine theme state text store
    let outcome := tokenizer.outcome engine theme state text (fun _ => false) store
    (∃ visited last final,
      tokenizer.Runs engine theme text started.1 started.2 visited last final ∧
      Line.step (tokenizer.scanner engine theme) (tokenizer.rescan engine theme)
        (Tokenizer.lineOf text) last final = .done outcome.stack outcome.work ∧
      outcome.work.outOfSteps = false) ∧
    ∀ visited cursor work,
      tokenizer.Runs engine theme text started.1 started.2 visited cursor work →
      visited.length < Line.stepBound (tokenizer.scanner engine theme) (Tokenizer.lineOf text)
        started.1.stack ∧
      ∀ lingering last final, tokenizer.Runs engine theme text cursor work lingering last final →
        (∀ next ∈ lingering, next.pos = cursor.pos) →
        ∃ (pops : Nat) (pushes : List RuleId),
          Line.movesFrom cursor.stack lingering = List.replicate pops .pop ++ pushes.map .push ∧
          pops ≤ cursor.stack.frames.length ∧ pushes.Nodup := by
  have never (target : RuleId) : ¬ tokenizer.grammar.Retokenizes target := by
    rintro ⟨id, rule, isCapture, again⟩
    rw [plain id rule isCapture] at again
    cases again
  have guards := Line.guards_calm used.root inside never injected
    (List.mem_singleton_self (Tokenizer.lineOf text)) (tokenizer.styling theme)
    (tokenizer.rescan engine theme)
  obtain ⟨orderly, calm⟩ :=
    tokenizer.started_orderly inside never used.serves reached theme text
  have enough := Line.potential_lt_stepBound (tokenizer.scanner engine theme)
    (Tokenizer.lineOf text) (tokenizer.started engine theme state text store).1
  refine ⟨guards.scanFrom_ends calm orderly _ enough, ?_⟩
  intro visited cursor work runs
  obtain ⟨middle, ordered⟩ := guards.reached calm orderly runs
  constructor
  · have bound := guards.length_le calm orderly runs
    exact Nat.lt_of_le_of_lt (Nat.le_trans (Nat.le_add_right ..) bound) enough
  · intro lingering last final goesOn stays
    obtain ⟨pops, pushes, split, deep, distinct, _⟩ := guards.moves middle ordered goesOn stays
    exact ⟨pops, pushes, split, deep, distinct⟩

namespace EmptyStarts

/-- The state after a line that enters both regions where it starts. -/
def afterLetter : Stack :=
  (tokenizer.scanLine literal .plain none "c" (fun _ => false) store).1.state

theorem reached : tokenizer.Reached literal (fun _ => True) (some afterLetter) :=
  .line trivial inUse .start "c" _

/-- The rule with which the text of a group is scanned again. -/
def rescannedWith : Rule → Option RuleId
  | .capture rule => rule.retokenize
  | _ => none

/-- No group of the grammar is tokenized again, so the theorem applies to it. -/
theorem plain (id : RuleId) (rule : CaptureRule)
    (isCapture : tokenizer.grammar.rule id = .capture rule) : rule.retokenize = none := by
  have none : (tokenizer.grammar.rules.all fun rule => (rescannedWith rule).isNone) = true := by
    decide +kernel
  unfold CompiledGrammar.rule at isCapture
  cases held : tokenizer.grammar.rules[id]? with
  | none =>
    rw [held] at isCapture
    cases isCapture
  | some found =>
    rw [held, Option.getD_some] at isCapture
    have nothing := Array.all_eq_true_iff_forall_mem.mp none found (Array.mem_of_getElem? held)
    rw [isCapture] at nothing
    exact Option.isNone_iff_eq_none.mp nothing

theorem uninjected : tokenizer.grammar.injections = [] := by
  apply List.isEmpty_iff.mp
  decide +kernel

end EmptyStarts

/-- Two regions that start with nothing, one inside the other. -/
theorem scan_terminates_emptyStarts :
    let tokenizer := EmptyStarts.tokenizer
    let started := tokenizer.started literal .plain (some EmptyStarts.afterLetter) "bac"
      EmptyStarts.store
    literal.StaysInside ∧
      tokenizer.Reached literal (fun _ => True) (some EmptyStarts.afterLetter) ∧
      (tokenizer.outcome literal .plain (some EmptyStarts.afterLetter) "bac" (fun _ => false)
        EmptyStarts.store).work.outOfSteps = false ∧
      ∀ visited cursor work lingering last final,
        tokenizer.Runs literal .plain "bac" started.1 started.2 visited cursor work →
        tokenizer.Runs literal .plain "bac" cursor work lingering last final →
        (∀ next ∈ lingering, next.pos = cursor.pos) →
        ∃ (pops : Nat) (pushes : List RuleId),
          Line.movesFrom cursor.stack lingering = List.replicate pops .pop ++ pushes.map .push ∧
          pops ≤ cursor.stack.frames.length ∧ pushes.Nodup := by
  have none (injection : Injection) (member : injection ∈ EmptyStarts.tokenizer.grammar.injections) :
      ∀ region, EmptyStarts.tokenizer.grammar.rule injection.rule ≠ .region region := by
    rw [EmptyStarts.uninjected] at member
    cases member
  obtain ⟨⟨_, _, _, _, _, ends⟩, runs⟩ := scan_terminates EmptyStarts.tokenizer literal_staysInside
    EmptyStarts.inUse EmptyStarts.plain none EmptyStarts.reached .plain "bac"
  exact ⟨literal_staysInside, EmptyStarts.reached, ends,
    fun visited cursor work lingering last final run goesOn stays =>
      (runs visited cursor work run).2 lingering last final goesOn stays⟩

end ScopeLexer

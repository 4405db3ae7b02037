import ScopeLexer.Proofs.WorkInvariant

/-! Two scans of a line that stay in step. A simulation relates the work of two
scanners that differ in how they find matches; it says that both find the same
match, and that the relation outlasts the few things a scan does to its work: a
piece is added that ends at a byte where the line can be cut, a warning is
noted, a part of the line gets a number of its own. Then the relation outlasts
the scan, and both scans end alike. It may say so only for as long as the finder
of the one scan is in a state of some kind; then the scans end alike if that is
the kind of the last state.

Whether a start took the end of its line is asked only of the frame at the top,
before the scan. Stacks that differ elsewhere in this are alike, and scans from
stacks that are alike stay in step as well. -/
namespace ScopeLexer

open Grammar Pattern Regex

/-- The text of some group is scanned again with a rule. -/
def CompiledGrammar.Retokenizes (grammar : CompiledGrammar) (target : RuleId) : Prop :=
  ∃ id rule, grammar.rule id = .capture rule ∧ rule.retokenize = some target

/-- What is compared of a frame: whether its start took the end of the line only
if the comparison is strict. -/
def Frame.compared (strict : Bool) (frame : Frame) : Frame :=
  { frame with tookLineEnd := strict && frame.tookLineEnd }

namespace Stack

/-- What is compared of a stack. -/
def compared (strict : Bool) (stack : Stack) : Stack :=
  ⟨stack.top.compared strict, stack.rest.map (Frame.compared strict)⟩

/-- Stacks that are the same, unless the comparison is not strict: then they may
differ in which starts took the end of their line. -/
def Alike (left : Stack) (strict : Bool) (right : Stack) : Prop :=
  left.compared strict = right.compared strict

namespace Alike

theorem refl (stack : Stack) : Alike stack strict stack := rfl

variable {strict : Bool} {left right : Stack}

/-- Compared strictly, only a stack itself is like it. -/
theorem eq (alike : Alike left true right) : left = right := by
  have whole (stack : Stack) : stack.compared true = stack := by
    have frame : Frame.compared true = id := by
      funext frame
      simp [Frame.compared]
    simp [compared, frame]
  rw [← whole left, alike, whole right]

theorem frames (alike : Alike left strict right) :
    left.frames.map (Frame.compared strict) = right.frames.map (Frame.compared strict) :=
  congrArg Stack.frames alike

theorem length (alike : Alike left strict right) : left.frames.length = right.frames.length := by
  simpa using congrArg List.length alike.frames

theorem rule (alike : Alike left strict right) : left.top.rule = right.top.rule :=
  congrArg (·.top.rule) alike

theorem ending (alike : Alike left strict right) : left.top.ending = right.top.ending :=
  congrArg (·.top.ending) alike

theorem enteredAt (alike : Alike left strict right) : left.top.enteredAt = right.top.enteredAt :=
  congrArg (·.top.enteredAt) alike

theorem anchor (alike : Alike left strict right) : left.top.anchor = right.top.anchor :=
  congrArg (·.top.anchor) alike

theorem nameScopes (alike : Alike left strict right) : left.top.nameScopes = right.top.nameScopes :=
  congrArg (·.top.nameScopes) alike

theorem contentScopes (alike : Alike left strict right) : left.contentScopes = right.contentScopes :=
  congrArg (·.top.contentScopes) alike

theorem push (alike : Alike left strict right) (rule : RuleId) (enteredAt anchor : Option Nat)
    (tookLineEnd : Bool) (scopes : ScopePath) :
    Alike (left.push rule enteredAt anchor tookLineEnd scopes) strict
      (right.push rule enteredAt anchor tookLineEnd scopes) := by
  have depth : left.top.depth = right.top.depth := congrArg (·.top.depth) alike
  have digest : left.top.digest = right.top.digest := congrArg (·.top.digest) alike
  simp only [Alike, compared, Stack.push, Stack.pushWith, depth, digest, alike.frames]

/-- Alike stacks are alike without their top frames. -/
theorem pop (alike : Alike left strict right) : Alike left.pop strict right.pop := by
  have rests : left.rest.map (Frame.compared strict) = right.rest.map (Frame.compared strict) :=
    congrArg Stack.rest alike
  cases leftRest : left.rest with
  | nil =>
    cases rightRest : right.rest with
    | nil => simpa [Stack.pop, pop?, leftRest, rightRest] using alike
    | cons frame rest => simp [leftRest, rightRest] at rests
  | cons frame rest =>
    cases rightRest : right.rest with
    | nil => simp [leftRest, rightRest] at rests
    | cons other others =>
      rw [leftRest, rightRest, List.map_cons, List.map_cons, List.cons.injEq] at rests
      simp [Alike, compared, Stack.pop, pop?, leftRest, rightRest, rests.1, rests.2]

theorem withContentScopes (alike : Alike left strict right) (scopes : ScopePath) :
    Alike (left.withContentScopes scopes) strict (right.withContentScopes scopes) :=
  congrArg (fun stack : Stack => stack.withContentScopes scopes) alike

theorem withEnding (alike : Alike left strict right) (ending : String) :
    Alike (left.withEnding ending) strict (right.withEnding ending) := by
  have commutes (stack : Stack) :
      (stack.withEnding ending).compared strict = (stack.compared strict).withEnding ending := by
    simp only [Stack.withEnding, Stack.withEndingWith, compared, Frame.compared, List.head?_map,
      Option.map_map, Function.comp_def]
  rw [Alike, commutes, commutes, alike]

theorem hasEntered (alike : Alike left strict right) {frame other : Frame}
    (frames : frame.compared strict = other.compared strict) :
    left.hasEntered frame = right.hasEntered other := by
  have commutes (stack : Stack) (frame : Frame) :
      stack.hasEntered frame = (stack.compared strict).hasEntered (frame.compared strict) := by
    have mapped : (stack.compared strict).frames = stack.frames.map (Frame.compared strict) := rfl
    simp only [Stack.hasEntered, mapped, List.takeWhile_map, List.any_map]
    rfl
  rw [commutes left, commutes right, alike, frames]

end Alike
end Stack

namespace Line

/-- All bytes that a match names are bytes where something holds. -/
structure Match.On (cut : Nat → Prop) (found : Match) : Prop where
  start : cut found.start
  stop : cut found.stop
  groups : ∀ group span, found.spans.group group = some span → cut span.start ∧ cut span.stop

/-- What keeps two scans in step: how matches are found on either side, the
bytes where a line may be cut, and a relation of the work done for the lines
that are being scanned, the innermost first. -/
structure Simulation (σ τ : Type) where
  /-- Stacks are compared strictly. -/
  strict : Bool
  grammar : CompiledGrammar
  styling : Styling
  left : Finder σ
  right : Finder τ
  Cut : SourceLine → Nat → Prop
  Related : List SourceLine → Work σ → Work τ → Prop
  /-- The states of the finder on the left for which the same matches are found. Once a state is
  none of them, no later one is. -/
  Sound : σ → Prop := fun _ => True
  whole : ∀ line, Cut line line.byteSize
  sameCount : ∀ {known a b}, Related known a b → a.lineCount = b.lineCount
  next : ∀ {known a b line stack other} pos flavour, Related known a b → line ∈ known →
    stack.Alike strict other → Sound (left.next line pos flavour stack a.finder).2 →
    (left.next line pos flavour stack a.finder).1 = (right.next line pos flavour other b.finder).1 ∧
      Related known { a with finder := (left.next line pos flavour stack a.finder).2 }
        { b with finder := (right.next line pos flavour other b.finder).2 } ∧
      ∀ found, (left.next line pos flavour stack a.finder).1 = some found → found.On (Cut line)
  condition : ∀ {known a b line frame other} pos flavour, Related known a b → line ∈ known →
    frame.compared strict = other.compared strict →
    Sound (left.condition line pos flavour frame a.finder).2 →
    (left.condition line pos flavour frame a.finder).1 =
        (right.condition line pos flavour other b.finder).1 ∧
      Related known { a with finder := (left.condition line pos flavour frame a.finder).2 }
        { b with finder := (right.condition line pos flavour other b.finder).2 } ∧
      ∀ found, (left.condition line pos flavour frame a.finder).1 = some found → found.On (Cut line)
  warn : ∀ {known a b} warning, Related known a b →
    Related known { a with finder := left.warn warning a.finder }
      { b with finder := right.warn warning b.finder }
  produce : ∀ {known a b line stop} scopes, Related known a b → line ∈ known → Cut line stop →
    Related known (a.produce scopes stop) (b.produce scopes stop)
  divide : ∀ {known a b line stop}, Related known a b → line ∈ known → Cut line stop →
    Related (line.upTo stop a.lineCount :: known) { a with lineCount := a.lineCount + 1 }
      { b with lineCount := b.lineCount + 1 }
  forget : ∀ {known a b line}, Related (line :: known) a b → Related known a b
  sound_next : ∀ {line pos flavour stack state},
    Sound (left.next line pos flavour stack state).2 → Sound state := by exact fun _ => trivial
  sound_condition : ∀ {line pos flavour frame state},
    Sound (left.condition line pos flavour frame state).2 → Sound state := by exact fun _ => trivial
  sound_warn : ∀ {warning state}, Sound (left.warn warning state) → Sound state := by
    exact fun _ => trivial

namespace Simulation

variable {σ τ : Type} (sim : Simulation σ τ)

def first : Scanner σ := ⟨sim.grammar, sim.styling, sim.left⟩

def second : Scanner τ := ⟨sim.grammar, sim.styling, sim.right⟩

/-- The simulation for as long as the bound on the steps is not met. -/
def calm : Simulation σ τ where
  strict := sim.strict
  grammar := sim.grammar
  styling := sim.styling
  left := sim.left
  right := sim.right
  Cut := sim.Cut
  Related known a b := sim.Related known a b ∧ a.outOfSteps = false
  Sound := sim.Sound
  whole := sim.whole
  sameCount related := sim.sameCount related.1
  next pos flavour related member alike sound := by
    obtain ⟨same, asked, on⟩ := sim.next pos flavour related.1 member alike sound
    exact ⟨same, ⟨asked, related.2⟩, on⟩
  condition pos flavour related member alike sound := by
    obtain ⟨same, asked, on⟩ := sim.condition pos flavour related.1 member alike sound
    exact ⟨same, ⟨asked, related.2⟩, on⟩
  warn warning related := ⟨sim.warn warning related.1, related.2⟩
  produce scopes related member cut := ⟨sim.produce scopes related.1 member cut, related.2⟩
  divide related member cut := ⟨sim.divide related.1 member cut, related.2⟩
  forget related := ⟨sim.forget related.1, related.2⟩
  sound_next := sim.sound_next
  sound_condition := sim.sound_condition
  sound_warn := sim.sound_warn

@[simp]
theorem first_grammar : sim.first.grammar = sim.grammar := rfl

@[simp]
theorem second_grammar : sim.second.grammar = sim.grammar := rfl

@[simp]
theorem first_styling : sim.first.styling = sim.styling := rfl

@[simp]
theorem second_styling : sim.second.styling = sim.styling := rfl

@[simp]
theorem first_finder : sim.first.finder = sim.left := rfl

@[simp]
theorem second_finder : sim.second.finder = sim.right := rfl

/-- The finder on the left has come to a state that is not sound. -/
def Spoiled (work : Work σ) : Prop := ¬ sim.Sound work.finder

/-- Whatever a scan does, a state that is not sound is followed by none that is. -/
theorem spoils : WorkInvariant sim.first (fun _ => True) sim.Spoiled where
  push _ _ _ _ := trivial
  produce _ _ _ _ spoiled := spoiled
  next _ _ _ _ _ spoiled sound := spoiled (sim.sound_next sound)
  condition _ _ _ _ _ spoiled sound := spoiled (sim.sound_condition sound)
  warn _ _ spoiled sound := spoiled (sim.sound_warn sound)
  number _ _ spoiled := spoiled
  exhaust _ spoiled := spoiled

theorem sound_before {work after : Work σ} (spoils : sim.Spoiled work → sim.Spoiled after)
    (sound : sim.Sound after.finder) : sim.Sound work.finder :=
  Classical.byContradiction fun spoiled => spoils spoiled sound

/-- Ways to scan parts of lines again that keep the relation, with the rules
for which a part is scanned again. -/
structure Follows (rescan : Rescan σ) (other : Rescan τ) : Prop where
  related : ∀ {known line a b stack stack'} isFirst pos, sim.grammar.Retokenizes stack.top.rule →
    sim.Related known a b → line ∈ known → stack.Alike sim.strict stack' →
    sim.Sound (rescan line isFirst pos stack a).finder →
    sim.Related known (rescan line isFirst pos stack a) (other line isFirst pos stack' b)
  spoils : WorkInvariant.Rescans (fun _ => True) sim.Spoiled rescan

/-- The relation outlasts the bound on the steps. -/
def Exhausts : Prop :=
  ∀ {known a b}, sim.Related known a b →
    sim.Related known { a with outOfSteps := true } { b with outOfSteps := true }

/-- Steps that lead to the same. -/
inductive Agree (known : List SourceLine) : Step σ → Step τ → Prop where
  | next (alike : cursor.stack.Alike sim.strict other) (related : sim.Related known a b) :
    Agree known (.next cursor a) (.next { cursor with stack := other } b)
  | done (alike : stack.Alike sim.strict other) (related : sim.Related known a b) :
    Agree known (.done stack a) (.done other b)

variable {sim} {known : List SourceLine} {line : SourceLine} {a : Work σ} {b : Work τ}
  {stack other : Stack}

theorem Agree.work {step : Step σ} {other : Step τ} (agree : sim.Agree known step other) :
    sim.Related known step.work other.work := by
  cases agree with
  | next alike related => exact related
  | done alike related => exact related

theorem produceTop (related : sim.Related known a b) (member : line ∈ known)
    (cut : sim.Cut line stop) (alike : stack.Alike sim.strict other) :
    sim.Related known (a.produceTop stack stop) (b.produceTop other stop) := by
  rw [Work.produceTop, Work.produceTop, alike.contentScopes]
  exact sim.produce _ related member cut

section Groups

variable {groups : List OpenGroup} {rescan : Rescan σ} {rescan' : Rescan τ} {spans : Spans}

/-- Which groups end does not depend on the pieces there are. -/
theorem closeGroups_fst (start : Nat) (groups : List OpenGroup) (pieces : Pieces) :
    (closeGroups start groups pieces).1 = groups.dropWhile (·.stop ≤ start) := by
  induction groups generalizing pieces with
  | nil => rfl
  | cons group outer ih =>
    rw [closeGroups, List.dropWhile_cons]
    split
    next ends => simpa [ends] using ih _
    next goesOn => simp [goesOn]

theorem closeGroups_related (related : sim.Related known a b) (member : line ∈ known)
    (cuts : ∀ group ∈ groups, sim.Cut line group.stop) (start : Nat) :
    sim.Related known { a with pieces := (closeGroups start groups a.pieces).2 }
      { b with pieces := (closeGroups start groups b.pieces).2 } := by
  induction groups generalizing a b with
  | nil => exact related
  | cons group outer ih =>
    rw [closeGroups, closeGroups]
    split
    · have produced := sim.produce group.scopes related member (cuts group List.mem_cons_self)
      exact ih produced fun inner among => cuts inner (List.mem_cons_of_mem _ among)
    · exact related

theorem closeAllGroups_related (related : sim.Related known a b) (member : line ∈ known)
    (cuts : ∀ group ∈ groups, sim.Cut line group.stop) :
    sim.Related known { a with pieces := closeAllGroups groups a.pieces }
      { b with pieces := closeAllGroups groups b.pieces } := by
  induction groups generalizing a b with
  | nil => exact related
  | cons group outer ih =>
    have produced := sim.produce group.scopes related member (cuts group List.mem_cons_self)
    exact ih produced fun inner among => cuts inner (List.mem_cons_of_mem _ among)

/-- A rule for a group is one of the grammar, and the group took part in the match. -/
theorem captureAt_some {scanner : Scanner σ}
    (captured : captureAt? scanner captures spans number = some (rule, span)) :
    (∃ id, scanner.grammar.rule id = .capture rule) ∧ spans.group number = some span := by
  unfold captureAt? at captured
  obtain ⟨id, _, captured⟩ := Option.bind_eq_some_iff.mp captured
  split at captured
  next held =>
    obtain ⟨seen, spanned, captured⟩ := Option.bind_eq_some_iff.mp captured
    split at captured
    · cases captured
    · cases captured
      exact ⟨⟨id, held⟩, spanned⟩
  next => cases captured

theorem innermostScopes_alike (alike : stack.Alike sim.strict other) (groups : List OpenGroup) :
    innermostScopes stack groups = innermostScopes other groups := by
  cases groups with
  | nil => exact alike.contentScopes
  | cons group outer => rfl

variable (sim) in
theorem rescanStack_alike (alike : stack.Alike sim.strict other) (rule : CaptureRule)
    (retokenize : RuleId) (line : SourceLine) (spans : Spans) (start : Nat) :
    (rescanStack sim.first stack rule retokenize line spans start).Alike sim.strict
      (rescanStack sim.second other rule retokenize line spans start) := by
  rw [rescanStack, rescanStack, alike.contentScopes]
  exact (alike.push ..).withContentScopes _

/-- Scanning a part again leaves the works related for the lines around it. -/
theorem Follows.part (follows : sim.Follows rescan rescan')
    (retokenizes : sim.grammar.Retokenizes stack.top.rule) (related : sim.Related known a b)
    (member : line ∈ known) (cut : sim.Cut line stop) (alike : stack.Alike sim.strict other)
    (isFirst : Bool) (start : Nat)
    (sound : sim.Sound (rescan (line.upTo stop a.lineCount) isFirst start stack
      { a with lineCount := a.lineCount + 1 }).finder) :
    sim.Related known
      (rescan (line.upTo stop a.lineCount) isFirst start stack
        { a with lineCount := a.lineCount + 1 })
      (rescan' (line.upTo stop b.lineCount) isFirst start other
        { b with lineCount := b.lineCount + 1 }) := by
  have divided := sim.divide related member cut
  have scanned := sim.forget
    (follows.related isFirst start retokenizes divided List.mem_cons_self alike sound)
  simpa only [sim.sameCount related] using scanned

/-- Beginning a group keeps the two scans related. -/
theorem beginGroup_related {id : RuleId} (follows : sim.Follows rescan rescan')
    (related : sim.Related known a b) (member : line ∈ known) (alike : stack.Alike sim.strict other)
    (cuts : ∀ group ∈ groups, sim.Cut line group.stop) (startCut : sim.Cut line span.start)
    (stopCut : sim.Cut line span.stop) (held : sim.grammar.rule id = .capture rule) (isFirst : Bool)
    (spans : Spans)
    (sound : sim.Sound
      (beginGroup sim.first rescan line isFirst stack spans rule span groups a).2.finder) :
    (beginGroup sim.first rescan line isFirst stack spans rule span groups a).1 =
        (beginGroup sim.second rescan' line isFirst other spans rule span groups b).1 ∧
      (∀ group ∈ (beginGroup sim.first rescan line isFirst stack spans rule span groups a).1,
        sim.Cut line group.stop) ∧
      sim.Related known (beginGroup sim.first rescan line isFirst stack spans rule span groups a).2
        (beginGroup sim.second rescan' line isFirst other spans rule span groups b).2 := by
  have closed := closeGroups_related related member cuts span.start
  have left (group : OpenGroup) (among : group ∈ groups.dropWhile (·.stop ≤ span.start)) :
      sim.Cut line group.stop := cuts group ((List.dropWhile_sublist _).subset among)
  have produced := sim.produce
    (innermostScopes other (groups.dropWhile (·.stop ≤ span.start))) closed member startCut
  unfold beginGroup at sound ⊢
  simp only [closeGroups_fst, innermostScopes_alike alike] at sound ⊢
  cases again : rule.retokenize with
  | some retokenize =>
    have inside := rescanStack_alike sim alike rule retokenize line spans span.start
    rw [again] at sound
    exact ⟨rfl, left,
      follows.part ⟨id, rule, held, again⟩ produced member stopCut inside _ _ sound⟩
  | none =>
    cases resolvedName rule.name line spans with
    | none => exact ⟨rfl, left, produced⟩
    | some name =>
      refine ⟨rfl, ?_, produced⟩
      intro group among
      rcases List.mem_cons.mp among with rfl | among
      · exact stopCut
      · exact left group among

/-- Walking through the groups of a match keeps the two scans related. -/
theorem walkGroups_related (follows : sim.Follows rescan rescan') (member : line ∈ known)
    (alike : stack.Alike sim.strict other)
    (spansCut : ∀ group span, spans.group group = some span →
      sim.Cut line span.start ∧ sim.Cut line span.stop)
    (isFirst : Bool) (captures : CaptureTable) (last : Nat) (numbers : List Nat)
    (related : sim.Related known a b) (cuts : ∀ group ∈ groups, sim.Cut line group.stop)
    (sound : sim.Sound (walkGroups sim.first rescan line isFirst stack captures spans last numbers
      groups a).2.finder) :
    (walkGroups sim.first rescan line isFirst stack captures spans last numbers groups a).1 =
        (walkGroups sim.second rescan' line isFirst other captures spans last numbers groups b).1 ∧
      (∀ group ∈ (walkGroups sim.first rescan line isFirst stack captures spans last numbers groups
        a).1, sim.Cut line group.stop) ∧
      sim.Related known
        (walkGroups sim.first rescan line isFirst stack captures spans last numbers groups a).2
        (walkGroups sim.second rescan' line isFirst other captures spans last numbers groups b).2 := by
  induction numbers generalizing groups a b with
  | nil => exact ⟨rfl, cuts, related⟩
  | cons number numbers ih =>
    have same : captureAt? sim.second captures spans number =
      captureAt? sim.first captures spans number := rfl
    rw [walkGroups] at sound
    rw [walkGroups, walkGroups, same]
    cases captured : captureAt? sim.first captures spans number with
    | none =>
      rw [captured] at sound
      exact ih related cuts sound
    | some capture =>
      obtain ⟨rule, span⟩ := capture
      simp only [captured] at sound ⊢
      split
      next => exact ⟨rfl, cuts, related⟩
      next inside =>
        rw [if_neg inside] at sound
        obtain ⟨⟨id, held⟩, spanned⟩ := captureAt_some captured
        obtain ⟨startCut, stopCut⟩ := spansCut number span spanned
        have before := sim.sound_before (fun spoiled => (sim.spoils.walkGroups follows.spoils
          stack.liesIn_true (fun _ _ => trivial) spoiled line isFirst captures spans last numbers).1)
          sound
        obtain ⟨groupsSame, left, begun⟩ := beginGroup_related follows related member alike cuts
          startCut stopCut held isFirst spans before
        rw [← groupsSame]
        exact ih begun left sound

/-- Handling the groups of a match keeps two scans in step. -/
theorem produceCaptures_related (follows : sim.Follows rescan rescan')
    (related : sim.Related known a b) (member : line ∈ known) (alike : stack.Alike sim.strict other)
    (found : Match) (on : found.On (sim.Cut line)) (isFirst : Bool) (captures : CaptureTable)
    (sound : sim.Sound
      (produceCaptures sim.first rescan line isFirst stack captures found.spans a).finder) :
    sim.Related known
      (produceCaptures sim.first rescan line isFirst stack captures found.spans a)
      (produceCaptures sim.second rescan' line isFirst other captures found.spans b) := by
  unfold produceCaptures at sound ⊢
  cases whole : found.spans.whole with
  | none => exact related
  | some whole =>
    have noGroups : ∀ group ∈ ([] : List OpenGroup), sim.Cut line group.stop := by
      intro group absurd
      cases absurd
    rw [whole] at sound
    obtain ⟨same, cuts, walked⟩ := walkGroups_related follows member alike on.groups isFirst captures
      _ (List.range (min captures.size found.spans.size)) related noGroups sound
    simp only [← same]
    exact closeAllGroups_related walked member cuts

end Groups

section Steps

variable {rescan : Rescan σ} {rescan' : Rescan τ} {cursor : Cursor} {found : Match}

theorem Agree.advance (alike : stack.Alike sim.strict other) (related : sim.Related known a b)
    (pos : Nat) (anchor : Option Nat) (isFirst : Bool) (stop : Nat) :
    sim.Agree known (.next (Cursor.advance ⟨stack, pos, anchor, isFirst⟩ stop) a)
      (.next (Cursor.advance ⟨other, pos, anchor, isFirst⟩ stop) b) := by
  unfold Cursor.advance
  simp only
  split
  · exact .next alike related
  · exact .next alike related

theorem giveUp_agree (related : sim.Related known a b) (member : line ∈ known)
    (alike : stack.Alike sim.strict other) (warning : Warning) :
    sim.Agree known (giveUp sim.first line warning stack a)
      (giveUp sim.second line warning other b) :=
  .done alike (produceTop (sim.warn warning related) member (sim.whole line) alike)

/-- Leaving a rule, the two scans agree. -/
theorem leaveRule_agree (follows : sim.Follows rescan rescan') (related : sim.Related known a b)
    (member : line ∈ known) (alike : cursor.stack.Alike sim.strict other)
    (on : found.On (sim.Cut line))
    (sound : sim.Sound (leaveRule sim.first rescan line cursor found a).work.finder) :
    sim.Agree known (leaveRule sim.first rescan line cursor found a)
      (leaveRule sim.second rescan' line { cursor with stack := other } found b) := by
  have before := produceTop related member on.start alike
  have left := alike.withContentScopes cursor.stack.top.nameScopes
  have captured := produceCaptures_related follows before member left found on cursor.isFirst
    (stopCapturesOf (sim.grammar.rule cursor.stack.top.rule))
  unfold leaveRule at sound ⊢
  simp only [← alike.nameScopes, ← left.rule, ← left.enteredAt, ← left.anchor, first_grammar,
    second_grammar] at sound ⊢
  split
  next stays =>
    rw [if_pos stays] at sound
    exact giveUp_agree (produceTop (captured (sim.sound_warn sound)) member on.stop left) member left _
  next moves =>
    rw [if_neg moves] at sound
    exact .advance left.pop (produceTop (captured sound) member on.stop left) ..

/-- The two scans complete the end of a rule to the same text. -/
theorem resolveEnding_related (related : sim.Related known a b) (alike : stack.Alike sim.strict other)
    (pattern : PatternId) (hasReferences : Bool) (line : SourceLine) (spans : Spans) :
    (resolveEnding sim.first pattern hasReferences line spans stack a).1.Alike sim.strict
        (resolveEnding sim.second pattern hasReferences line spans other b).1 ∧
      sim.Related known (resolveEnding sim.first pattern hasReferences line spans stack a).2
        (resolveEnding sim.second pattern hasReferences line spans other b).2 := by
  have warned (warnings : List Warning) {a : Work σ} {b : Work τ} (related : sim.Related known a b) :
      sim.Related known
        { a with finder := warnings.foldl (fun state warning => sim.left.warn warning state) a.finder }
        { b with
          finder := warnings.foldl (fun state warning => sim.right.warn warning state) b.finder } := by
    induction warnings generalizing a b with
    | nil => exact related
    | cons warning warnings ih => exact ih (sim.warn warning related)
  unfold resolveEnding
  split
  · exact ⟨alike.withEnding _, warned _ related⟩
  · exact ⟨alike, related⟩

/-- Entering a rule with an end or a condition, the two scans agree. -/
theorem enterSpanning_agree (follows : sim.Follows rescan rescan') (related : sim.Related known a b)
    (member : line ∈ known) (below : cursor.stack.Alike sim.strict below')
    (alike : stack.Alike sim.strict other) (on : found.On (sim.Cut line)) (rule : Spanning)
    (sound : sim.Sound
      (enterSpanning sim.first rescan line cursor found rule stack a).work.finder) :
    sim.Agree known (enterSpanning sim.first rescan line cursor found rule stack a)
      (enterSpanning sim.second rescan' line { cursor with stack := below' } found rule other b) := by
  have before : sim.Sound (produceCaptures sim.first rescan line cursor.isFirst stack
      rule.startCaptures found.spans a).finder := by
    refine sim.sound_before (fun spoiled => ?_) sound
    have ended := sim.spoils.produceTop stack.liesIn_true spoiled found.stop
    have resolved := sim.spoils.resolveEnding ended rule.ending rule.endingHasReferences line found.spans
    unfold enterSpanning
    simp only
    split
    · exact sim.spoils.giveUp (Stack.liesIn_true _) (resolved _) line _
    · exact resolved _
  have captured := produceCaptures_related follows related member alike found on cursor.isFirst
    rule.startCaptures before
  have after := produceTop captured member on.stop alike
  have named := alike.withContentScopes
    (stack.top.nameScopes.push sim.styling (resolvedName rule.contentName line found.spans))
  obtain ⟨ended, resolved⟩ := resolveEnding_related after named rule.ending rule.endingHasReferences
    line found.spans
  have tops := congrArg Stack.top ended
  unfold enterSpanning
  simp only [← alike.nameScopes, first_styling, second_styling, below.hasEntered tops]
  split
  · exact giveUp_agree resolved member ended.pop _
  · exact .advance ended resolved ..

/-- At a match within the line, the two scans agree. -/
theorem matchSingle_agree (follows : sim.Follows rescan rescan') (related : sim.Related known a b)
    (member : line ∈ known) (alike : stack.Alike sim.strict other) (on : found.On (sim.Cut line))
    (rule : Rule) (below' : Stack)
    (sound : sim.Sound (matchSingle sim.first rescan line cursor found rule stack a).work.finder) :
    sim.Agree known (matchSingle sim.first rescan line cursor found rule stack a)
      (matchSingle sim.second rescan' line { cursor with stack := below' } found rule other b) := by
  have captured := produceCaptures_related follows related member alike found on cursor.isFirst
    (capturesOf rule)
  unfold matchSingle at sound ⊢
  simp only at sound ⊢
  split
  next stays =>
    rw [if_pos stays] at sound
    have after := produceTop (captured (sim.sound_warn sound)) member on.stop alike
    exact giveUp_agree after member alike.pop.pop _
  next moves =>
    rw [if_neg moves] at sound
    exact .advance alike.pop (produceTop (captured sound) member on.stop alike) ..

/-- Entering any rule, the two scans agree. -/
theorem enterRule_agree (follows : sim.Follows rescan rescan') (related : sim.Related known a b)
    (member : line ∈ known) (alike : cursor.stack.Alike sim.strict other)
    (on : found.On (sim.Cut line)) (id : RuleId)
    (sound : sim.Sound (enterRule sim.first rescan line cursor found id a).work.finder) :
    sim.Agree known (enterRule sim.first rescan line cursor found id a)
      (enterRule sim.second rescan' line { cursor with stack := other } found id b) := by
  have before := produceTop related member on.start alike
  unfold enterRule at sound ⊢
  simp only [← alike.contentScopes, first_grammar, second_grammar, first_styling, second_styling]
    at sound ⊢
  have pushed := alike.push id (some cursor.pos) cursor.anchor (decide (found.stop = line.byteSize))
    (cursor.stack.contentScopes.push sim.styling
      (resolvedName (sim.grammar.rule id).name line found.spans))
  cases spans : spanning? (sim.grammar.rule id) with
  | some rule =>
    rw [spans] at sound
    exact enterSpanning_agree follows before member alike pushed on rule sound
  | none =>
    rw [spans] at sound
    exact matchSingle_agree follows before member pushed on _ other sound

/-- A step keeps two scans in step. -/
theorem step_agree (follows : sim.Follows rescan rescan') (related : sim.Related known a b)
    (member : line ∈ known) (alike : cursor.stack.Alike sim.strict other)
    (sound : sim.Sound (step sim.first rescan line cursor a).work.finder) :
    sim.Agree known (step sim.first rescan line cursor a)
      (step sim.second rescan' line { cursor with stack := other } b) := by
  have found : sim.Sound ({ a with finder :=
      (sim.left.next line cursor.pos cursor.flavour cursor.stack a.finder).2 } : Work σ).finder := by
    refine sim.sound_before (fun spoiled => ?_) sound
    exact sim.spoils.afterNext follows.spoils cursor.stack.liesIn_true spoiled
  obtain ⟨same, asked, on⟩ := sim.next cursor.pos cursor.flavour related member alike found
  have flavour : Cursor.flavour { cursor with stack := other } = cursor.flavour := rfl
  unfold step at sound ⊢
  simp only [flavour, first_finder, second_finder, ← same] at sound ⊢
  cases answer : (sim.left.next line cursor.pos cursor.flavour cursor.stack a.finder).1 with
  | none => exact .done alike (produceTop asked member (sim.whole line) alike)
  | some found =>
    cases target : found.target with
    | leave =>
      simp only [answer, target] at sound ⊢
      exact leaveRule_agree follows asked member alike (on found answer) sound
    | enter rule =>
      simp only [answer, target] at sound ⊢
      exact enterRule_agree follows asked member alike (on found answer) rule sound

end Steps

section Runs

variable {rescan : Rescan σ} {rescan' : Rescan τ} {cursor : Cursor}

theorem stepBound_alike (alike : stack.Alike sim.strict other) (line : SourceLine) :
    stepBound sim.first line stack = stepBound sim.second line other := by
  rw [stepBound, stepBound, alike.length, first_grammar, second_grammar]

/-- Scans that start alike end alike. -/
theorem scanFrom_related (exhausts : sim.Exhausts) (follows : sim.Follows rescan rescan')
    (member : line ∈ known) (expired : Nat → Bool) (steps : Nat)
    (related : sim.Related known a b)
    (alike : cursor.stack.Alike sim.strict other)
    (sound : sim.Sound (scanFrom sim.first rescan expired line steps cursor a).work.finder) :
    (scanFrom sim.first rescan expired line steps cursor a).stack.Alike sim.strict
        (scanFrom sim.second rescan' expired line steps { cursor with stack := other } b).stack ∧
      (scanFrom sim.first rescan expired line steps cursor a).stoppedEarly =
        (scanFrom sim.second rescan' expired line steps { cursor with stack := other }
          b).stoppedEarly ∧
      sim.Related known (scanFrom sim.first rescan expired line steps cursor a).work
        (scanFrom sim.second rescan' expired line steps { cursor with stack := other } b).work := by
  induction steps generalizing cursor other a b with
  | zero => exact ⟨alike, rfl, exhausts related⟩
  | succ steps ih =>
    rw [scanFrom] at sound
    rw [scanFrom, scanFrom]
    split
    · exact ⟨alike, rfl, produceTop related member (sim.whole line) alike⟩
    next inTime =>
      rw [if_neg inTime] at sound
      have agree := step_agree follows related member alike
      generalize step sim.first rescan line cursor a = taken at agree sound ⊢
      generalize step sim.second rescan' line { cursor with stack := other } b = taken' at agree ⊢
      cases taken with
      | next next work =>
        have before := sim.sound_before (fun spoiled => sim.spoils.scanFrom follows.spoils
          next.stack.liesIn_true spoiled line expired steps) sound
        cases agree before with
        | next alike related => exact ih related alike sound
      | done stack work =>
        cases agree sound with
        | done alike related => exact ⟨alike, rfl, related⟩

variable (sim) in
theorem follows_rescanGroup (exhausts : sim.Exhausts) (depth : Nat) :
    sim.Follows (rescanGroup sim.first depth) (rescanGroup sim.second depth) := by
  induction depth with
  | zero =>
    exact ⟨fun isFirst pos _ related member alike _ => exhausts related, sim.spoils.rescanGroup 0⟩
  | succ depth ih =>
    refine ⟨?_, sim.spoils.rescanGroup (depth + 1)⟩
    intro known line a b stack other isFirst pos _ related member alike sound
    rw [rescanGroup] at sound
    rw [rescanGroup, rescanGroup, ← stepBound_alike alike]
    exact (scanFrom_related exhausts ih member _ _ related alike sound).2.2

variable (cursor) in
/-- The two scans check a condition alike. -/
theorem checkCondition_related (follows : sim.Follows rescan rescan')
    (related : sim.Related known a b) (member : line ∈ known) (alike : stack.Alike sim.strict other)
    (under : Stack) (rule : BlockRule)
    (sound : sim.Sound (checkCondition sim.first rescan line cursor stack rule a).2.finder) :
    ((checkCondition sim.first rescan line cursor stack rule a).1.map
        fun cursor => { cursor with stack := under }) =
        (checkCondition sim.second rescan' line { cursor with stack := under } other rule b).1 ∧
      sim.Related known (checkCondition sim.first rescan line cursor stack rule a).2
        (checkCondition sim.second rescan' line { cursor with stack := under } other rule b).2 := by
  have found : sim.Sound ({ a with finder :=
      (sim.left.condition line cursor.pos cursor.flavour stack.top a.finder).2 } : Work σ).finder := by
    refine sim.sound_before (fun spoiled => ?_) sound
    exact sim.spoils.afterCondition follows.spoils stack.liesIn_true spoiled rule
  obtain ⟨same, asked, on⟩ := sim.condition cursor.pos cursor.flavour related member
    (congrArg Stack.top alike) found
  have flavour : Cursor.flavour { cursor with stack := under } = cursor.flavour := rfl
  unfold checkCondition at sound ⊢
  simp only [flavour, first_finder, second_finder, ← same] at sound ⊢
  cases answer : (sim.left.condition line cursor.pos cursor.flavour stack.top a.finder).1 with
  | none => exact ⟨rfl, asked⟩
  | some found =>
    rw [answer] at sound
    have before := produceTop asked member (on found answer).start alike
    have captured := produceCaptures_related follows before member alike found (on found answer)
      cursor.isFirst rule.conditionCaptures sound
    refine ⟨?_, produceTop captured member (on found answer).stop alike⟩
    simp only [Option.map_some, Cursor.advance]
    split <;> rfl

/-- The frames with conditions are found alike. -/
theorem blocksOf_compared (grammar : CompiledGrammar) (frames : List Frame) :
    ((blocksOf grammar frames).map fun block => (block.1.compared sim.strict, block.2)) =
      blocksOf grammar (frames.map (Frame.compared sim.strict)) := by
  induction frames with
  | nil => rfl
  | cons frame rest ih =>
    have rule : grammar.rule (frame.compared sim.strict).rule = grammar.rule frame.rule := rfl
    rw [List.map_cons, blocksOf, blocksOf, List.map_append, ih, rule]
    congr 1
    cases grammar.rule frame.rule <;> rfl

/-- The two scans check all conditions alike, on frames that are alike. -/
theorem checkAll_related (follows : sim.Follows rescan rescan') (member : line ∈ known)
    (blocks blocks' : List (Stack × BlockRule))
    (same : (blocks.map fun block => (block.1.compared sim.strict, block.2)) =
      blocks'.map fun block => (block.1.compared sim.strict, block.2))
    (related : sim.Related known a b) (alike : cursor.stack.Alike sim.strict other)
    (sound : sim.Sound (checkAll sim.first rescan line blocks cursor a).2.finder) :
    ∃ under, (checkAll sim.first rescan line blocks cursor a).1.stack.Alike sim.strict under ∧
      (checkAll sim.second rescan' line blocks' { cursor with stack := other } b).1 =
        { (checkAll sim.first rescan line blocks cursor a).1 with stack := under } ∧
      sim.Related known (checkAll sim.first rescan line blocks cursor a).2
        (checkAll sim.second rescan' line blocks' { cursor with stack := other } b).2 := by
  induction blocks generalizing blocks' cursor a b with
  | nil =>
    cases blocks' with
    | nil => exact ⟨other, alike, rfl, related⟩
    | cons block blocks' => cases same
  | cons block blocks ih =>
    cases blocks' with
    | nil => cases same
    | cons block' blocks' =>
      obtain ⟨stack, rule⟩ := block
      obtain ⟨stack', rule'⟩ := block'
      simp only [List.map_cons, List.cons.injEq, Prod.mk.injEq] at same
      obtain ⟨⟨together, rfl⟩, rests⟩ := same
      have together : stack.Alike sim.strict stack' := together
      have checks := checkCondition_related cursor follows related member together other rule
      have kept (next : Cursor)
          (holds : (checkCondition sim.first rescan line cursor stack rule a).1 = some next) :=
        stack_of_checkCondition holds
      rw [checkAll] at sound
      rw [checkAll, checkAll]
      generalize checkCondition sim.first rescan line cursor stack rule a = result
        at checks kept sound ⊢
      generalize checkCondition sim.second rescan' line { cursor with stack := other } stack' rule b =
        result' at checks ⊢
      obtain ⟨holds, left⟩ := result
      obtain ⟨holds', right⟩ := result'
      cases holds with
      | none =>
        obtain ⟨answer, checked⟩ := checks sound
        cases answer
        exact ⟨stack'.pop, together.pop, rfl, checked⟩
      | some next =>
        have before := sim.sound_before (fun spoiled => sim.spoils.checkAll follows.spoils blocks
          (fun block _ => block.1.liesIn_true) spoiled line next) sound
        obtain ⟨answer, checked⟩ := checks before
        cases answer
        exact ih blocks' rests checked (by rwa [kept next rfl]) sound

theorem checkConditions_related (follows : sim.Follows rescan rescan')
    (related : sim.Related known a b) (member : line ∈ known) (alike : stack.Alike sim.strict other)
    (lineEnd : stack.top.tookLineEnd = other.top.tookLineEnd) (isFirst : Bool)
    (sound : sim.Sound (checkConditions sim.first rescan line isFirst stack a).2.finder) :
    ∃ under, (checkConditions sim.first rescan line isFirst stack a).1.stack.Alike sim.strict under ∧
      (checkConditions sim.second rescan' line isFirst other b).1 =
        { (checkConditions sim.first rescan line isFirst stack a).1 with stack := under } ∧
      sim.Related known (checkConditions sim.first rescan line isFirst stack a).2
        (checkConditions sim.second rescan' line isFirst other b).2 := by
  have blocks : ((blocksOf sim.grammar stack.frames).map fun block =>
      (block.1.compared sim.strict, block.2)) =
        (blocksOf sim.grammar other.frames).map fun block => (block.1.compared sim.strict, block.2) := by
    rw [blocksOf_compared, blocksOf_compared, alike.frames]
  unfold checkConditions at sound ⊢
  rw [← lineEnd]
  exact checkAll_related follows member _ _ blocks related alike sound

/-- Scans of a line that start alike, also in whether the start at the top took
the end of its line, end alike. -/
theorem scan_related (exhausts : sim.Exhausts) (related : sim.Related known a b) (member : line ∈ known)
    (alike : stack.Alike sim.strict other) (lineEnd : stack.top.tookLineEnd = other.top.tookLineEnd)
    (depth : Nat) (expired : Nat → Bool) (isFirst : Bool)
    (sound : sim.Sound (scan sim.first depth expired line isFirst stack a).work.finder) :
    (scan sim.first depth expired line isFirst stack a).stack.Alike sim.strict
        (scan sim.second depth expired line isFirst other b).stack ∧
      (scan sim.first depth expired line isFirst stack a).stoppedEarly =
        (scan sim.second depth expired line isFirst other b).stoppedEarly ∧
      sim.Related known (scan sim.first depth expired line isFirst stack a).work
        (scan sim.second depth expired line isFirst other b).work := by
  have follows : sim.Follows _ _ := follows_rescanGroup sim exhausts depth
  unfold scan at sound
  have before := sim.sound_before (fun spoiled => sim.spoils.scanFrom follows.spoils
    (Stack.liesIn_true _) spoiled line expired _) sound
  obtain ⟨under, left, cursors, checked⟩ :=
    checkConditions_related follows related member alike lineEnd isFirst before
  unfold scan
  simp only [cursors]
  rw [← stepBound_alike left]
  exact scanFrom_related exhausts follows member expired _ checked left sound

end Runs
end Simulation
end Line
end ScopeLexer

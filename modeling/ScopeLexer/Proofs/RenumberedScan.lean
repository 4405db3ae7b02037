import ScopeLexer.Proofs.GrammarUse
import ScopeLexer.Proofs.RenumberedFinder
import ScopeLexer.Proofs.WorkInvariant

/-! Scans with grammars that differ in the numbers of their rules. A frame has the number
of its rule, and a hash that depends on it; apart from these the scans go through the same
frames, and give the same pieces. The grammar with more rules is allowed more steps. So
the one scan follows the other for as long as that does not meet its bound. -/
namespace ScopeLexer

open Grammar Pattern Regex

namespace Stack

variable (rename : RuleId → RuleId)

/-- A frame under another number, on top of some frames. -/
def renamedFrame (below : List Frame) (frame : Frame) : Frame :=
  { frame with
    rule := rename frame.rule
    digest := frameDigest (below.head?.map Frame.digest) frame.depth (rename frame.rule)
      frame.ending }

/-- Frames under other numbers, from the top down. -/
def renamedFrames : List Frame → List Frame
  | [] => []
  | frame :: rest => renamedFrame rename (renamedFrames rest) frame :: renamedFrames rest

/-- The state under other numbers. -/
def renamed (stack : Stack) : Stack :=
  ⟨renamedFrame rename (renamedFrames rename stack.rest) stack.top, renamedFrames rename stack.rest⟩

theorem renamed_root (rule : RuleId) (scopes : ScopePath) :
    (root rule scopes).renamed rename = root (rename rule) scopes := rfl

theorem renamed_pop (stack : Stack) : stack.pop.renamed rename = (stack.renamed rename).pop := by
  obtain ⟨top, rest⟩ := stack
  cases rest <;> rfl

theorem renamedFrames_forget (frames : List Frame) :
    renamedFrames rename (frames.map forgetFrame) =
      (renamedFrames rename frames).map forgetFrame := by
  induction frames with
  | nil => rfl
  | cons frame rest ih =>
    have head : ((renamedFrames rename rest).map forgetFrame).head?.map Frame.digest =
        (renamedFrames rename rest).head?.map Frame.digest := by
      cases renamedFrames rename rest <;> rfl
    simp only [List.map_cons, renamedFrames, ih, renamedFrame, head]
    rfl

theorem renamed_forgetLine (stack : Stack) :
    stack.forgetLine.renamed rename = (stack.renamed rename).forgetLine := by
  have frames := renamedFrames_forget rename stack.frames
  obtain ⟨top, rest⟩ := stack
  exact congrArg (fun frames : List Frame => match frames with
    | [] => (⟨top, rest⟩ : Stack)
    | top :: rest => ⟨top, rest⟩) frames

theorem length_renamedFrames (frames : List Frame) :
    (renamedFrames rename frames).length = frames.length := by
  induction frames with
  | nil => rfl
  | cons frame rest ih => rw [renamedFrames, List.length_cons, List.length_cons, ih]

/-- A renaming that keeps rules apart neither hides nor invents a frame entered here. -/
theorem hasEntered_renamed {rename : RuleId → RuleId}
    (injective : ∀ id other, rename id = rename other → id = other) (stack : Stack)
    (frame : Frame) {other : Frame} (rule : other.rule = rename frame.rule)
    (enteredAt : other.enteredAt = frame.enteredAt) :
    (stack.renamed rename).hasEntered other = stack.hasEntered frame := by
  have each (frames : List Frame) :
      ((renamedFrames rename frames).takeWhile (·.enteredAt = frame.enteredAt)).any
          (·.rule = other.rule) =
        (frames.takeWhile (·.enteredAt = frame.enteredAt)).any (·.rule = frame.rule) := by
    induction frames with
    | nil => rfl
    | cons first rest ih =>
      have entered : (renamedFrame rename (renamedFrames rename rest) first).enteredAt =
          first.enteredAt := rfl
      have same : ((renamedFrame rename (renamedFrames rename rest) first).rule = other.rule) =
          (first.rule = frame.rule) := by
        rw [rule]
        exact propext ⟨injective _ _, congrArg rename⟩
      rw [renamedFrames, List.takeWhile_cons, List.takeWhile_cons, entered]
      split
      · rw [List.any_cons, List.any_cons, ih]
        simp only [same]
      · rfl
  unfold hasEntered
  rw [enteredAt]
  exact each stack.frames

end Stack

namespace Line

/-- How far a scan has come, under other numbers. -/
def Cursor.renamed (rename : RuleId → RuleId) (cursor : Cursor) : Cursor :=
  { cursor with stack := cursor.stack.renamed rename }

theorem Cursor.renamed_advance (rename : RuleId → RuleId) (cursor : Cursor) (stop : Nat) :
    (cursor.advance stop).renamed rename = (cursor.renamed rename).advance stop := by
  have pos : (cursor.renamed rename).pos = cursor.pos := rfl
  unfold Cursor.advance
  rw [pos]
  split <;> rfl

/-- What there is to know of a rule that is entered, under other numbers. -/
def Spanning.renamed (rename : RuleId → RuleId) (rule : Spanning) : Spanning :=
  { rule with startCaptures := rule.startCaptures.mapIds rename }

theorem spanning?_mapIds (rename : RuleId → RuleId) (rule : Rule) :
    spanning? (rule.mapIds rename) = (spanning? rule).map (Spanning.renamed rename) := by
  cases rule <;> rfl

theorem capturesOf_mapIds (rename : RuleId → RuleId) (rule : Rule) :
    capturesOf (rule.mapIds rename) = (capturesOf rule).mapIds rename := by
  cases rule <;> simp [capturesOf, Rule.mapIds]

/-- A bound that was met stays met. -/
theorem exhausted_invariant {σ : Type} {scanner : Scanner σ} : WorkInvariant scanner (fun _ => True)
    (fun work : Work σ => work.outOfSteps = true) where
  push _ _ _ _ := trivial
  produce _ _ _ _ met := met
  next _ _ _ _ _ met := met
  condition _ _ _ _ _ met := met
  warn _ _ met := met
  number _ _ met := met
  exhaust _ _ := rfl

end Line

namespace Grammar

/-- A rule for a group, under other numbers. -/
def CaptureRule.renamed (rename : RuleId → RuleId) (rule : CaptureRule) : CaptureRule :=
  { rule with retokenize := rule.retokenize.map rename }

/-- A rule with a condition, under other numbers. -/
def BlockRule.renamed (rename : RuleId → RuleId) (rule : BlockRule) : BlockRule :=
  { rule with
    startCaptures := rule.startCaptures.mapIds rename
    conditionCaptures := rule.conditionCaptures.mapIds rename
    patterns := rule.patterns.map rename }

@[simp]
theorem Rule.name_mapIds (rename : RuleId → RuleId) (rule : Rule) :
    (rule.mapIds rename).name = rule.name := by
  cases rule <;> rfl

theorem CaptureTable.get?_mapIds (rename : RuleId → RuleId) (table : CaptureTable)
    (group : Nat) : (table.mapIds rename).get? group = (table.get? group).map rename := by
  unfold CaptureTable.get? CaptureTable.mapIds
  rw [Array.getElem?_map]
  cases table.rules[group]? <;> rfl

end Grammar

namespace Renumbering

open Line

variable {left right : CompiledGrammar} (numbering : Renumbering left right)

def first (_ : Renumbering left right) (engine : Engine) (styling : Styling) : Scanner Workspace :=
  ⟨left, styling, rememberingFinder engine left⟩

def second (_ : Renumbering left right) (engine : Engine) (styling : Styling) : Scanner Workspace :=
  ⟨right, styling, rememberingFinder engine right⟩

/-- The work of two scans is the same up to numbers, unless the one has met its bound. -/
def Works (a b : Work Workspace) : Prop :=
  a.outOfSteps = false →
    a.finder.Fits left ∧ b = { a with finder := a.finder.renamed numbering.rename }

/-- Two ways to scan parts of lines again that go together. The one does not forget that it
has met its bound. -/
structure Follows (rescan other : Rescan Workspace) : Prop where
  works : ∀ line isFirst pos stack a b, numbering.Works a b →
    numbering.Works (rescan line isFirst pos stack a)
      (other line isFirst pos (stack.renamed numbering.rename) b)
  sticky : WorkInvariant.Rescans (fun _ => True) (fun work => work.outOfSteps = true) rescan

variable {numbering} {a b : Work Workspace} {stack : Stack} {engine : Engine} {styling : Styling}

theorem Works.produce (works : numbering.Works a b) (scopes : ScopePath) (stop : Nat) :
    numbering.Works (a.produce scopes stop) (b.produce scopes stop) := by
  intro calm
  obtain ⟨fits, rfl⟩ := works calm
  exact ⟨fits, rfl⟩

theorem Works.produceTop (works : numbering.Works a b) (stack : Stack) (stop : Nat) :
    numbering.Works (a.produceTop stack stop) (b.produceTop (stack.renamed numbering.rename) stop) :=
  works.produce _ _

theorem Works.warn (works : numbering.Works a b) (engine : Engine) (warning : Warning) :
    numbering.Works { a with finder := (rememberingFinder engine left).warn warning a.finder }
      { b with finder := (rememberingFinder engine right).warn warning b.finder } := by
  intro calm
  obtain ⟨fits, rfl⟩ := works calm
  exact ⟨fits, rfl⟩

/-- Once the one has met its bound, anything goes. -/
theorem works_of_exhausted (met : a.outOfSteps = true) : numbering.Works a b := by
  intro calm
  rw [met] at calm
  cases calm

section Groups

variable {groups : List Line.OpenGroup} {rescan other : Rescan Workspace}

variable (numbering engine styling) in
/-- The renamed table has the renamed rule for a group, at the same span. -/
theorem captureAt_renamed (captures : CaptureTable) (spans : Spans) (number : Nat) :
    captureAt? (numbering.second engine styling) (captures.mapIds numbering.rename) spans number =
      (captureAt? (numbering.first engine styling) captures spans number).map
        (Prod.map (CaptureRule.renamed numbering.rename) id) := by
  unfold captureAt?
  rw [CaptureTable.get?_mapIds]
  cases captures.get? number with
  | none => rfl
  | some id =>
    have rule := numbering.rule id
    simp only [Option.map_some, Option.bind_eq_bind, Option.bind_some, first, second]
    rcases rule with same | ⟨held, other, here, there⟩
    · rw [same]
      cases left.rule id with
      | capture rule =>
        simp only [Rule.mapIds]
        cases spans.group number with
        | none => rfl
        | some span =>
          simp only [Option.bind_some]
          split <;> rfl
      | single | group | region | block | reserved => rfl
    · rw [here, there]
      rfl

theorem closeGroups_works (works : numbering.Works a b) (start : Nat)
    (groups : List Line.OpenGroup) :
    numbering.Works { a with pieces := (closeGroups start groups a.pieces).2 }
      { b with pieces := (closeGroups start groups b.pieces).2 } := by
  intro calm
  obtain ⟨fits, rfl⟩ := works calm
  exact ⟨fits, rfl⟩

theorem Follows.part (follows : numbering.Follows rescan other) (works : numbering.Works a b)
    (line : SourceLine) (stop start : Nat) (isFirst : Bool) (stack : Stack) :
    numbering.Works
      (rescan (line.upTo stop a.lineCount) isFirst start stack
        { a with lineCount := a.lineCount + 1 })
      (other (line.upTo stop b.lineCount) isFirst start (stack.renamed numbering.rename)
        { b with lineCount := b.lineCount + 1 }) := by
  by_cases met : a.outOfSteps = true
  · exact works_of_exhausted (follows.sticky _ _ _ _ _ (stack.liesIn_true) met)
  · obtain ⟨fits, rfl⟩ := works (Bool.eq_false_iff.mpr met)
    exact follows.works _ _ _ _ _ _ fun _ => ⟨fits, rfl⟩

/-- Beginning a group leads to the same work under other numbers. -/
theorem beginGroup_works (follows : numbering.Follows rescan other) (works : numbering.Works a b)
    (engine : Engine) (styling : Styling) (line : SourceLine) (isFirst : Bool) (stack : Stack)
    (spans : Spans) (rule : CaptureRule) (span : Span) (groups : List Line.OpenGroup) :
    (beginGroup (numbering.second engine styling) other line isFirst (stack.renamed numbering.rename)
        spans (rule.renamed numbering.rename) span groups b).1 =
      (beginGroup (numbering.first engine styling) rescan line isFirst stack spans rule span groups
        a).1 ∧
    numbering.Works
      (beginGroup (numbering.first engine styling) rescan line isFirst stack spans rule span groups
        a).2
      (beginGroup (numbering.second engine styling) other line isFirst
        (stack.renamed numbering.rename) spans (rule.renamed numbering.rename) span groups b).2 := by
  have closed := closeGroups_works works span.start groups
  have scopes (groups : List Line.OpenGroup) :
      innermostScopes (stack.renamed numbering.rename) groups = innermostScopes stack groups := by
    cases groups <;> rfl
  have produced := closed.produce
    (innermostScopes stack (groups.dropWhile (·.stop ≤ span.start))) span.start
  obtain ⟨name, contentName, retokenize⟩ := rule
  unfold beginGroup
  simp only [Simulation.closeGroups_fst, scopes, CaptureRule.renamed]
  cases retokenize with
  | some retokenize =>
    exact ⟨rfl, follows.part produced line span.stop span.start _
      (rescanStack (numbering.first engine styling) stack ⟨name, contentName, some retokenize⟩
        retokenize line spans span.start)⟩
  | none =>
    simp only [Option.map_none]
    cases resolvedName name line spans with
    | none => exact ⟨rfl, produced⟩
    | some name => exact ⟨rfl, produced⟩

/-- Walking through the groups of a match leads to the same work under other numbers. -/
theorem walkGroups_works (follows : numbering.Follows rescan other) (works : numbering.Works a b)
    (engine : Engine) (styling : Styling) (line : SourceLine) (isFirst : Bool) (stack : Stack)
    (captures : CaptureTable) (spans : Spans) (last : Nat) (numbers : List Nat)
    (groups : List Line.OpenGroup) :
    (walkGroups (numbering.second engine styling) other line isFirst
        (stack.renamed numbering.rename) (captures.mapIds numbering.rename) spans last numbers groups
        b).1 =
      (walkGroups (numbering.first engine styling) rescan line isFirst stack captures spans last
        numbers groups a).1 ∧
    numbering.Works
      (walkGroups (numbering.first engine styling) rescan line isFirst stack captures spans last
        numbers groups a).2
      (walkGroups (numbering.second engine styling) other line isFirst
        (stack.renamed numbering.rename) (captures.mapIds numbering.rename) spans last numbers groups
        b).2 := by
  induction numbers generalizing groups a b with
  | nil => exact ⟨rfl, works⟩
  | cons number numbers ih =>
    rw [walkGroups, walkGroups, captureAt_renamed]
    cases captureAt? (numbering.first engine styling) captures spans number with
    | none => exact ih works groups
    | some captured =>
      obtain ⟨rule, span⟩ := captured
      simp only [Option.map_some, Prod.map_apply, id_eq]
      split
      · exact ⟨rfl, works⟩
      · obtain ⟨same, begun⟩ := beginGroup_works follows works engine styling line isFirst stack spans
          rule span groups
        rw [same]
        exact ih begun _

/-- Handling the groups of a match keeps two scans together. -/
theorem produceCaptures_works (follows : numbering.Follows rescan other)
    (works : numbering.Works a b) (engine : Engine) (styling : Styling) (line : SourceLine)
    (isFirst : Bool) (stack : Stack) (captures : CaptureTable) (spans : Spans) :
    numbering.Works
      (produceCaptures (numbering.first engine styling) rescan line isFirst stack captures spans a)
      (produceCaptures (numbering.second engine styling) other line isFirst
        (stack.renamed numbering.rename) (captures.mapIds numbering.rename) spans b) := by
  unfold produceCaptures
  cases spans.whole with
  | none => exact works
  | some whole =>
    obtain ⟨same, walked⟩ := walkGroups_works follows works engine styling line isFirst stack captures
      spans whole.stop (List.range (min captures.size spans.size)) []
    simp only [CaptureTable.size_mapIds, same]
    intro calm
    obtain ⟨fits, walked⟩ := walked calm
    rw [walked]
    exact ⟨fits, rfl⟩

end Groups

section Steps

variable (numbering) in
/-- Steps that lead to the same, unless the one scan has met its bound. -/
inductive Steps : Step Workspace → Step Workspace → Prop where
  | next {a b : Work Workspace} (cursor : Line.Cursor) (works : numbering.Works a b) :
    Steps (.next cursor a) (.next (cursor.renamed numbering.rename) b)
  | done {a b : Work Workspace} (stack : Stack) (works : numbering.Works a b) :
    Steps (.done stack a) (.done (stack.renamed numbering.rename) b)
  | spent {taken other : Step Workspace} (met : taken.work.outOfSteps = true) : Steps taken other

variable {rescan other : Rescan Workspace}

theorem giveUp_steps (works : numbering.Works a b) (engine : Engine) (styling : Styling)
    (line : SourceLine) (warning : Warning) (stack : Stack) :
    numbering.Steps (giveUp (numbering.first engine styling) line warning stack a)
      (giveUp (numbering.second engine styling) line warning (stack.renamed numbering.rename) b) :=
  .done stack ((works.warn engine warning).produceTop stack line.byteSize)

theorem Steps.advance (works : numbering.Works a b) (cursor : Line.Cursor) (stop : Nat) :
    numbering.Steps (.next (cursor.advance stop) a)
      (.next ((cursor.renamed numbering.rename).advance stop) b) := by
  rw [← Cursor.renamed_advance]
  exact .next _ works

theorem Steps.either {p q : Prop} [Decidable p] [Decidable q] (same : q = p)
    {taken other untaken unlike : Step Workspace} (yes : numbering.Steps taken other)
    (no : numbering.Steps untaken unlike) :
    numbering.Steps (if p then taken else untaken) (if q then other else unlike) := by
  subst same
  split
  · exact yes
  · exact no

variable (numbering) in
theorem stopCapturesOf_renamed (id : RuleId) :
    stopCapturesOf (right.rule (numbering.rename id)) =
      (stopCapturesOf (left.rule id)).mapIds numbering.rename := by
  rcases numbering.rule id with same | ⟨held, other, here, there⟩
  · rw [same]
    cases left.rule id <;> simp [stopCapturesOf, Rule.mapIds]
  · simp [here, there, stopCapturesOf]

/-- Leaving a rule is the same step under other numbers. -/
theorem leaveRule_steps (follows : numbering.Follows rescan other) (works : numbering.Works a b)
    (engine : Engine) (styling : Styling) (line : SourceLine) (cursor : Line.Cursor)
    (found : Match) :
    numbering.Steps (leaveRule (numbering.first engine styling) rescan line cursor found a)
      (leaveRule (numbering.second engine styling) other line (cursor.renamed numbering.rename)
        (found.renamed numbering.rename) b) := by
  have before := works.produceTop cursor.stack found.start
  have captured := produceCaptures_works follows before engine styling line cursor.isFirst
    cursor.stack.closing (stopCapturesOf (left.rule cursor.stack.top.rule)) found.spans
  have after := captured.produceTop cursor.stack.closing found.stop
  rw [← stopCapturesOf_renamed] at after
  have next := Steps.advance after
    { cursor with stack := cursor.stack.closing.pop, anchor := cursor.stack.top.anchor } found.stop
  simp only [Cursor.renamed, Stack.renamed_pop] at next
  unfold leaveRule
  exact .either rfl (giveUp_steps after engine styling line _ cursor.stack.closing) next

variable (numbering) in
/-- The end of a rule is completed to the same text under other numbers. -/
theorem resolveEnding_works (works : numbering.Works a b) (engine : Engine) (styling : Styling)
    (pattern : PatternId) (hasReferences : Bool) (line : SourceLine) (spans : Spans)
    (stack : Stack) :
    (resolveEnding (numbering.second engine styling) pattern hasReferences line spans
        (stack.renamed numbering.rename) b).1 =
      (resolveEnding (numbering.first engine styling) pattern hasReferences line spans stack
        a).1.renamed numbering.rename ∧
    numbering.Works
      (resolveEnding (numbering.first engine styling) pattern hasReferences line spans stack a).2
      (resolveEnding (numbering.second engine styling) pattern hasReferences line spans
        (stack.renamed numbering.rename) b).2 := by
  have warned (warnings : List Warning) {a b : Work Workspace} (works : numbering.Works a b) :
      numbering.Works
        { a with
          finder := warnings.foldl
            (fun state warning => (rememberingFinder engine left).warn warning state) a.finder }
        { b with
          finder := warnings.foldl
            (fun state warning => (rememberingFinder engine right).warn warning state)
            b.finder } := by
    induction warnings generalizing a b with
    | nil => exact works
    | cons warning warnings ih => exact ih (works.warn engine warning)
  unfold resolveEnding
  simp only [first, second, numbering.patterns]
  split
  · exact ⟨rfl, warned _ works⟩
  · exact ⟨rfl, works⟩

/-- A rule has been entered, and its frame is on top; where it was entered without advancing
before, the scan is over. -/
theorem entered_steps (works : numbering.Works a b) {stack under : Stack}
    (same : under = stack.renamed numbering.rename) (engine : Engine) (styling : Styling)
    (line : SourceLine) (cursor : Line.Cursor) (found : Match) (warning : Warning) :
    numbering.Steps
      (if found.stop ≤ cursor.pos && cursor.stack.hasEntered stack.top then
        giveUp (numbering.first engine styling) line warning stack.pop a
      else .next ({ cursor with stack := stack, anchor := some found.stop }.advance found.stop) a)
      (if found.stop ≤ cursor.pos && (cursor.stack.renamed numbering.rename).hasEntered under.top then
        giveUp (numbering.second engine styling) line warning under.pop b
      else .next
        (({ cursor with stack := under, anchor := some found.stop } : Line.Cursor).advance
          found.stop) b) := by
  subst same
  have entered : (cursor.stack.renamed numbering.rename).hasEntered
      (stack.renamed numbering.rename).top = cursor.stack.hasEntered stack.top :=
    Stack.hasEntered_renamed numbering.injective cursor.stack stack.top rfl rfl
  have ended := giveUp_steps works engine styling line warning stack.pop
  rw [Stack.renamed_pop] at ended
  rw [entered]
  exact .either rfl ended
    (Steps.advance works { cursor with stack := stack, anchor := some found.stop } found.stop)

theorem enterSpanning_steps (follows : numbering.Follows rescan other) (works : numbering.Works a b)
    (engine : Engine) (styling : Styling) (line : SourceLine) (cursor : Line.Cursor)
    (found : Match) (rule : Spanning) (stack : Stack) :
    numbering.Steps
      (enterSpanning (numbering.first engine styling) rescan line cursor found rule stack a)
      (enterSpanning (numbering.second engine styling) other line (cursor.renamed numbering.rename)
        (found.renamed numbering.rename) (rule.renamed numbering.rename)
        (stack.renamed numbering.rename) b) := by
  have captured := produceCaptures_works follows works engine styling line cursor.isFirst stack
    rule.startCaptures found.spans
  have after := captured.produceTop stack found.stop
  obtain ⟨ended, resolved⟩ := numbering.resolveEnding_works after engine styling rule.ending
    rule.endingHasReferences line found.spans (stack.withContentScopes
      (stack.top.nameScopes.push styling (resolvedName rule.contentName line found.spans)))
  exact entered_steps resolved ended engine styling line cursor found rule.warning

theorem matchSingle_steps (follows : numbering.Follows rescan other) (works : numbering.Works a b)
    (engine : Engine) (styling : Styling) (line : SourceLine) (cursor : Line.Cursor)
    (found : Match) (rule : Rule) (stack : Stack) :
    numbering.Steps
      (matchSingle (numbering.first engine styling) rescan line cursor found rule stack a)
      (matchSingle (numbering.second engine styling) other line (cursor.renamed numbering.rename)
        (found.renamed numbering.rename) (rule.mapIds numbering.rename)
        (stack.renamed numbering.rename) b) := by
  have captured := produceCaptures_works follows works engine styling line cursor.isFirst stack
    (capturesOf rule) found.spans
  have after := captured.produceTop stack found.stop
  rw [← capturesOf_mapIds] at after
  have next := Steps.advance after { cursor with stack := stack.pop } found.stop
  have ended := giveUp_steps after engine styling line .matchedNothing stack.pop.pop
  simp only [Cursor.renamed, Stack.renamed_pop] at next ended
  unfold matchSingle
  exact .either rfl ended next

/-- A rule that is entered by a pattern names the same rules under either numbering. -/
theorem rule_of_fits {id : RuleId} (fits : (Target.enter id).Fits left) :
    right.rule (numbering.rename id) = (left.rule id).mapIds numbering.rename := by
  rcases numbering.rule id with same | ⟨held, other, here, there⟩
  · exact same
  · rw [Target.Fits, here] at fits
    cases fits

theorem enterRule_steps (follows : numbering.Follows rescan other) (works : numbering.Works a b)
    (engine : Engine) (styling : Styling) (line : SourceLine) (cursor : Line.Cursor)
    (found : Match) {id : RuleId} (fits : (Target.enter id).Fits left) :
    numbering.Steps (enterRule (numbering.first engine styling) rescan line cursor found id a)
      (enterRule (numbering.second engine styling) other line (cursor.renamed numbering.rename)
        (found.renamed numbering.rename) (numbering.rename id) b) := by
  have before := works.produceTop cursor.stack found.start
  have scopes : (cursor.stack.renamed numbering.rename).contentScopes =
    cursor.stack.contentScopes := rfl
  unfold enterRule
  simp only [first, second, rule_of_fits fits, Rule.name_mapIds, spanning?_mapIds]
  cases spanning? (left.rule id) with
  | some rule => exact enterSpanning_steps follows before engine styling line cursor found rule _
  | none => exact matchSingle_steps follows before engine styling line cursor found _ _

/-- A step keeps two scans together. -/
theorem step_steps (follows : numbering.Follows rescan other) (works : numbering.Works a b)
    (engine : Engine) (styling : Styling) (line : SourceLine) (cursor : Line.Cursor) :
    numbering.Steps (step (numbering.first engine styling) rescan line cursor a)
      (step (numbering.second engine styling) other line (cursor.renamed numbering.rename) b) := by
  by_cases met : a.outOfSteps = true
  · exact .spent (exhausted_invariant.step follows.sticky (Stack.liesIn_true _) met line)
  obtain ⟨fits, rfl⟩ := works (Bool.eq_false_iff.mpr met)
  have answers : (numbering.second engine styling).finder.next line
      (cursor.renamed numbering.rename).pos (cursor.renamed numbering.rename).flavour
      (cursor.renamed numbering.rename).stack (a.finder.renamed numbering.rename) = _ :=
    numbering.findNext_renamed engine line cursor.pos cursor.flavour cursor.stack
      (cursor.stack.renamed numbering.rename) rfl rfl rfl a.finder
  have fitting := findNext_fits fits engine line cursor.pos cursor.flavour cursor.stack
  have here : (numbering.first engine styling).finder.next line cursor.pos cursor.flavour
      cursor.stack a.finder =
    findNext engine left line cursor.pos cursor.flavour cursor.stack a.finder := rfl
  unfold step
  rw [answers, here]
  generalize findNext engine left line cursor.pos cursor.flavour cursor.stack a.finder = answer
    at fitting ⊢
  obtain ⟨found, state⟩ := answer
  have works : numbering.Works { a with finder := state }
      { a with finder := state.renamed numbering.rename } := fun _ => ⟨fitting.2, rfl⟩
  cases found with
  | none => exact .done cursor.stack (works.produceTop cursor.stack line.byteSize)
  | some found =>
    have enters := fitting.1 found rfl
    obtain ⟨target, start, stop, spans⟩ := found
    cases target with
    | leave =>
      exact leaveRule_steps follows works engine styling line cursor ⟨.leave, start, stop, spans⟩
    | enter rule =>
      exact enterRule_steps follows works engine styling line cursor
        ⟨.enter rule, start, stop, spans⟩ enters

end Steps

section Runs

variable {rescan other : Rescan Workspace}

variable (numbering) in
/-- Scans that end the same, unless the one has met its bound. -/
def Ends (ended other : Outcome Workspace) : Prop :=
  numbering.Works ended.work other.work ∧ (ended.work.outOfSteps = false →
    other.stack = ended.stack.renamed numbering.rename ∧ other.stoppedEarly = ended.stoppedEarly)

theorem ends_of_exhausted {ended other : Outcome Workspace} (met : ended.work.outOfSteps = true) :
    numbering.Ends ended other := by
  refine ⟨works_of_exhausted met, fun calm => ?_⟩
  rw [met] at calm
  cases calm

/-- With enough steps on both sides, a scan ends alike under other numbers. -/
theorem scanFrom_ends (follows : numbering.Follows rescan other) (works : numbering.Works a b)
    (engine : Engine) (styling : Styling) (expired : Bool) (line : SourceLine)
    (cursor : Line.Cursor) {steps more : Nat} (enough : steps ≤ more) :
    numbering.Ends
      (scanFrom (numbering.first engine styling) rescan (fun _ => expired) line steps cursor a)
      (scanFrom (numbering.second engine styling) other (fun _ => expired) line more
        (cursor.renamed numbering.rename) b) := by
  induction steps generalizing more cursor a b with
  | zero => exact ends_of_exhausted rfl
  | succ steps ih =>
    obtain ⟨more, rfl⟩ := Nat.exists_eq_add_of_lt enough
    rw [scanFrom, scanFrom]
    split
    · exact ⟨works.produceTop cursor.stack line.byteSize, fun _ => ⟨rfl, rfl⟩⟩
    · have taken := step_steps follows works engine styling line cursor
      generalize step (numbering.first engine styling) rescan line cursor a = here at taken ⊢
      generalize step (numbering.second engine styling) other line
        (cursor.renamed numbering.rename) b = there at taken ⊢
      cases taken with
      | next cursor works => exact ih works cursor (Nat.le_add_right ..)
      | done stack works => exact ⟨works, fun _ => ⟨rfl, rfl⟩⟩
      | spent met =>
        apply ends_of_exhausted
        cases here with
        | done stack work => exact met
        | next cursor work =>
          exact exhausted_invariant.scanFrom follows.sticky (Stack.liesIn_true _) met line _ _

variable (numbering) in
theorem stepBound_le (engine : Engine) (styling : Styling) (line : SourceLine) (stack : Stack) :
    stepBound (numbering.first engine styling) line stack ≤
      stepBound (numbering.second engine styling) line (stack.renamed numbering.rename) := by
  have frames : (stack.renamed numbering.rename).frames.length = stack.frames.length :=
    Stack.length_renamedFrames numbering.rename stack.frames
  have size := Nat.mul_le_mul_left (2 * (line.byteSize + 1))
    (Nat.add_le_add_right numbering.size 2)
  unfold stepBound
  rw [frames]
  simp only [first, second]
  omega

variable (numbering) in
/-- Groups are scanned again in the same way. -/
theorem follows_rescanGroup (engine : Engine) (styling : Styling) (depth : Nat) :
    numbering.Follows (rescanGroup (numbering.first engine styling) depth)
      (rescanGroup (numbering.second engine styling) depth) := by
  induction depth with
  | zero =>
    exact ⟨fun _ _ _ _ _ _ _ => works_of_exhausted rfl,
      exhausted_invariant.rescanGroup 0⟩
  | succ depth ih =>
    refine ⟨fun line isFirst pos stack a b works => ?_, exhausted_invariant.rescanGroup _⟩
    exact (scanFrom_ends ih works engine styling false line ⟨stack, pos, none, isFirst⟩
      (numbering.stepBound_le engine styling line stack)).1

/-- A condition is checked alike under other numbers. -/
theorem checkCondition_works (follows : numbering.Follows rescan other)
    (works : numbering.Works a b) (engine : Engine) (styling : Styling) (line : SourceLine)
    (cursor : Line.Cursor) (stack : Stack) (rule : BlockRule) :
    numbering.Works
      (checkCondition (numbering.first engine styling) rescan line cursor stack rule a).2
      (checkCondition (numbering.second engine styling) other line (cursor.renamed numbering.rename)
        (stack.renamed numbering.rename) (rule.renamed numbering.rename) b).2 ∧
    ((checkCondition (numbering.first engine styling) rescan line cursor stack rule
        a).2.outOfSteps = false →
      (checkCondition (numbering.second engine styling) other line (cursor.renamed numbering.rename)
          (stack.renamed numbering.rename) (rule.renamed numbering.rename) b).1 =
        (checkCondition (numbering.first engine styling) rescan line cursor stack rule a).1.map
          (Cursor.renamed numbering.rename)) := by
  by_cases met : a.outOfSteps = true
  · have stays : (checkCondition (numbering.first engine styling) rescan line cursor stack rule
        a).2.outOfSteps = true :=
      exhausted_invariant.checkCondition follows.sticky stack.liesIn_true met line cursor rule
    refine ⟨works_of_exhausted stays, fun calm => ?_⟩
    rw [stays] at calm
    cases calm
  obtain ⟨fits, rfl⟩ := works (Bool.eq_false_iff.mpr met)
  have answers : (numbering.second engine styling).finder.condition line
      (cursor.renamed numbering.rename).pos (cursor.renamed numbering.rename).flavour
      (stack.renamed numbering.rename).top (a.finder.renamed numbering.rename) = _ :=
    numbering.findCondition_renamed engine line cursor.pos cursor.flavour stack.top
      (stack.renamed numbering.rename).top rfl rfl a.finder
  have here : (numbering.first engine styling).finder.condition line cursor.pos cursor.flavour
      stack.top a.finder =
    findCondition engine left line cursor.pos cursor.flavour stack.top a.finder := rfl
  have kept := findCondition_fits fits engine line cursor.pos cursor.flavour stack.top
  unfold checkCondition
  rw [answers, here]
  generalize findCondition engine left line cursor.pos cursor.flavour stack.top a.finder = answer
    at kept ⊢
  obtain ⟨found, state⟩ := answer
  have works : numbering.Works { a with finder := state }
      { a with finder := state.renamed numbering.rename } := fun _ => ⟨kept, rfl⟩
  cases found with
  | none => exact ⟨works, fun _ => rfl⟩
  | some found =>
    have before := works.produceTop stack found.start
    have captured := produceCaptures_works follows before engine styling line cursor.isFirst stack
      rule.conditionCaptures found.spans
    refine ⟨captured.produceTop stack found.stop, fun _ => ?_⟩
    exact congrArg some (Cursor.renamed_advance numbering.rename
      { cursor with anchor := some found.stop } found.stop).symm

variable (numbering) in
/-- The frames with a condition are the same frames under other numbers. -/
theorem blocksOf_renamed (frames : List Frame) :
    blocksOf right (Stack.renamedFrames numbering.rename frames) =
      (blocksOf left frames).map
        (Prod.map (Stack.renamed numbering.rename) (BlockRule.renamed numbering.rename)) := by
  induction frames with
  | nil => rfl
  | cons frame rest ih =>
    have rule : (Stack.renamedFrame numbering.rename (Stack.renamedFrames numbering.rename rest)
      frame).rule = numbering.rename frame.rule := rfl
    rw [Stack.renamedFrames, blocksOf, blocksOf, List.map_append, ih, rule]
    congr 1
    rcases numbering.rule frame.rule with same | ⟨held, other, here, there⟩
    · rw [same]
      cases left.rule frame.rule <;> rfl
    · rw [here, there]
      rfl

variable (numbering) in
/-- Conditions have been checked with the same result, unless the one scan has met its bound. -/
def Checks (checked other : Line.Cursor × Work Workspace) : Prop :=
  numbering.Works checked.2 other.2 ∧ (checked.2.outOfSteps = false →
    other.1 = checked.1.renamed numbering.rename)

/-- All conditions are checked alike under other numbers. -/
theorem checkAll_checks (follows : numbering.Follows rescan other) (works : numbering.Works a b)
    (engine : Engine) (styling : Styling) (line : SourceLine) (blocks : List (Stack × BlockRule))
    (cursor : Line.Cursor) :
    numbering.Checks (checkAll (numbering.first engine styling) rescan line blocks cursor a)
      (checkAll (numbering.second engine styling) other line
        (blocks.map (Prod.map (Stack.renamed numbering.rename) (BlockRule.renamed numbering.rename)))
        (cursor.renamed numbering.rename) b) := by
  induction blocks generalizing cursor a b with
  | nil => exact ⟨works, fun _ => rfl⟩
  | cons block blocks ih =>
    obtain ⟨stack, rule⟩ := block
    obtain ⟨checked, same⟩ := checkCondition_works follows works engine styling line cursor stack rule
    rw [List.map_cons, Prod.map_apply, checkAll, checkAll]
    generalize checkCondition (numbering.first engine styling) rescan line cursor stack rule a =
      result at checked same ⊢
    generalize checkCondition (numbering.second engine styling) other line
      (cursor.renamed numbering.rename) (stack.renamed numbering.rename)
      (rule.renamed numbering.rename) b = answer at checked same ⊢
    obtain ⟨holds, work⟩ := result
    obtain ⟨answer, otherWork⟩ := answer
    by_cases met : work.outOfSteps = true
    · -- The one scan goes on, but its bound stays met.
      have stays : ∀ cursor, (checkAll (numbering.first engine styling) rescan line blocks cursor
          work).2.outOfSteps = true := fun cursor =>
        exhausted_invariant.checkAll follows.sticky blocks (fun block _ => block.1.liesIn_true) met line cursor
      cases holds with
      | none => exact ⟨works_of_exhausted met, fun calm => Bool.noConfusion (met.symm.trans calm)⟩
      | some next =>
        exact ⟨works_of_exhausted (stays next),
          fun calm => Bool.noConfusion ((stays next).symm.trans calm)⟩
    · obtain rfl : answer = holds.map (Cursor.renamed numbering.rename) :=
        same (Bool.eq_false_iff.mpr met)
      cases holds with
      | none => exact ⟨checked, fun _ => by rw [← Stack.renamed_pop]; rfl⟩
      | some next => exact ih checked next

theorem checkConditions_checks (follows : numbering.Follows rescan other)
    (works : numbering.Works a b) (engine : Engine) (styling : Styling) (line : SourceLine)
    (isFirst : Bool) (stack : Stack) :
    numbering.Checks (checkConditions (numbering.first engine styling) rescan line isFirst stack a)
      (checkConditions (numbering.second engine styling) other line isFirst
        (stack.renamed numbering.rename) b) := by
  have checked := checkAll_checks follows works engine styling line (blocksOf left stack.frames)
    ⟨stack, 0, if stack.top.tookLineEnd then some 0 else none, isFirst⟩
  rw [← blocksOf_renamed] at checked
  exact checked

/-- Scans of a line with the one and the other grammar end the same. -/
theorem scan_ends (works : numbering.Works a b) (engine : Engine) (styling : Styling)
    (depth : Nat) (expired : Bool) (line : SourceLine) (isFirst : Bool) (stack : Stack) :
    numbering.Ends
      (scan (numbering.first engine styling) depth (fun _ => expired) line isFirst stack a)
      (scan (numbering.second engine styling) depth (fun _ => expired) line isFirst
        (stack.renamed numbering.rename) b) := by
  have follows := numbering.follows_rescanGroup engine styling depth
  obtain ⟨checked, same⟩ := checkConditions_checks follows works engine styling line isFirst stack
  unfold scan
  simp only
  generalize checkConditions (numbering.first engine styling) _ line isFirst stack a =
    result at checked same ⊢
  generalize checkConditions (numbering.second engine styling) _ line isFirst
    (stack.renamed numbering.rename) b = answer at checked same ⊢
  obtain ⟨cursor, work⟩ := result
  obtain ⟨answer, otherWork⟩ := answer
  by_cases met : work.outOfSteps = true
  · exact ends_of_exhausted
      (exhausted_invariant.scanFrom follows.sticky (Stack.liesIn_true _) met line _ _)
  · obtain rfl : answer = cursor.renamed numbering.rename := same (Bool.eq_false_iff.mpr met)
    exact scanFrom_ends follows checked engine styling expired line cursor
      (numbering.stepBound_le engine styling line cursor.stack)

end Runs

end Renumbering

/-- The line with the state that it leaves under other numbers. Its tokens are the same. -/
def ScannedLine.renamed (rename : RuleId → RuleId) (scanned : ScannedLine) : ScannedLine :=
  { scanned with state := scanned.state.renamed rename }

namespace Tokenizer

def scanLines (tokenizer : Tokenizer) (engine : Engine) (theme : Theme) (clock : Clock) :
    Option Stack → List String → Store → List ScannedLine
  | _, [], _ => []
  | state, text :: texts, store =>
    let (scanned, store) := tokenizer.scanLine engine theme state text clock store
    scanned :: scanLines tokenizer engine theme clock (some scanned.state) texts store

/-- No scan of lines, one after the other, meets its bound. -/
def Finishes (tokenizer : Tokenizer) (engine : Engine) (theme : Theme) (clock : Clock) :
    Option Stack → List String → Store → Prop
  | _, [], _ => True
  | state, text :: texts, store =>
    (tokenizer.outcome engine theme state text clock store).work.outOfSteps = false ∧
      Finishes tokenizer engine theme clock
        (some (tokenizer.scanLine engine theme state text clock store).1.state) texts
        (tokenizer.scanLine engine theme state text clock store).2

instance decidableFinishes (tokenizer : Tokenizer) (engine : Engine) (theme : Theme)
    (clock : Clock) : ∀ state texts store,
      Decidable (tokenizer.Finishes engine theme clock state texts store)
  | _, [], _ => isTrue trivial
  | state, text :: texts, store =>
    have := decidableFinishes tokenizer engine theme clock
      (some (tokenizer.scanLine engine theme state text clock store).1.state) texts
      (tokenizer.scanLine engine theme state text clock store).2
    inferInstanceAs (Decidable (_ ∧ _))

end Tokenizer

namespace Renumbering

variable {tokenizer other : Tokenizer} (numbering : Renumbering tokenizer.grammar other.grammar)
  (config : other.config = tokenizer.config) (depth : other.depth = tokenizer.depth)
  (engine : Engine) (theme : Theme)

theorem works_start (store : Store) :
    numbering.Works { finder := { store := store } } { finder := { store := store } } :=
  fun _ => ⟨by rintro _ _ ⟨⟩, rfl⟩

include config

theorem styling_eq : other.styling theme = tokenizer.styling theme := by
  unfold Tokenizer.styling
  rw [config]

theorem startStack_renamed (state : Option Stack) :
    other.startStack theme (state.map (Stack.renamed numbering.rename)) =
      (tokenizer.startStack theme state).renamed numbering.rename := by
  cases state with
  | some stack => exact (stack.renamed_forgetLine numbering.rename).symm
  | none =>
    simp only [Tokenizer.startStack, Option.map_none, Option.getD_none, Tokenizer.initialState,
      styling_eq config, numbering.root, numbering.scopeName, Stack.renamed_root]

include depth

/-- A line is tokenized in the same way, and leaves the same state under the other numbers. -/
theorem scanLine_renamed (limit : Option Nat) (state : Option Stack) (text : String)
    (store : Store)
    (calm : (tokenizer.outcome engine theme state text (.ofLimit limit) store).work.outOfSteps =
      false) :
    other.scanLine engine theme (state.map (Stack.renamed numbering.rename)) text (.ofLimit limit)
        store =
      Prod.map (ScannedLine.renamed numbering.rename) id
        (tokenizer.scanLine engine theme state text (.ofLimit limit) store) := by
  have packing : other.packing = tokenizer.packing := by
    unfold Tokenizer.packing
    rw [config]
  have there : other.outcome engine theme (state.map (Stack.renamed numbering.rename)) text
      (.ofLimit limit) store =
      Line.scan (numbering.second engine (tokenizer.styling theme)) tokenizer.depth
        (fun _ => decide (limit = some 0)) (Tokenizer.lineOf text) state.isNone
        ((tokenizer.startStack theme state).renamed numbering.rename)
        { finder := { store := store } } := by
    unfold Tokenizer.outcome Tokenizer.outcomeWith Tokenizer.scannerWith
    rw [numbering.startStack_renamed config, styling_eq config, depth, Option.isNone_map]
    rfl
  have ends := scan_ends (numbering.works_start store) engine (tokenizer.styling theme)
    tokenizer.depth (decide (limit = some 0)) (Tokenizer.lineOf text) state.isNone (tokenizer.startStack theme state)
  rw [← there] at ends
  obtain ⟨_, work⟩ := ends.1 calm
  obtain ⟨stack, early⟩ := ends.2 calm
  simp only [Tokenizer.scanLine_eq, packing, work, stack, early, ← Stack.renamed_forgetLine]
  rfl

/-- Lines are tokenized in the same way, one after the other. -/
theorem scanLines_renamed (limit : Option Nat) (state : Option Stack) (texts : List String)
    (store : Store)
    (finishes : tokenizer.Finishes engine theme (.ofLimit limit) state texts store) :
    other.scanLines engine theme (.ofLimit limit) (state.map (Stack.renamed numbering.rename)) texts
        store =
      (tokenizer.scanLines engine theme (.ofLimit limit) state texts store).map
        (ScannedLine.renamed numbering.rename) := by
  induction texts generalizing state store with
  | nil => rfl
  | cons text texts ih =>
    obtain ⟨calm, finishes⟩ := finishes
    rw [Tokenizer.scanLines, Tokenizer.scanLines,
      numbering.scanLine_renamed config depth engine theme limit state text store calm]
    exact congrArg _ (ih _ _ finishes)

end Renumbering
end ScopeLexer

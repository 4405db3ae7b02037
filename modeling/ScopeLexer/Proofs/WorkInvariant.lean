import ScopeLexer.Proofs.ScanCourse

/-! What a scan does to its work. It asks for matches, notes warnings, numbers
parts of the line, and adds pieces, whose scopes are those of a frame with more
scopes inside them. A property of the work that outlasts these outlasts the scan
of a line, with all groups that are scanned again in it. -/
namespace ScopeLexer

open Grammar Pattern Regex

/-- The scopes of all frames have a property. -/
def Stack.LiesIn (Inside : ScopePath → Prop) (stack : Stack) : Prop :=
  ∀ frame ∈ stack.frames, Inside frame.nameScopes ∧ Inside frame.contentScopes

theorem Stack.liesIn_true (stack : Stack) : stack.LiesIn fun _ => True :=
  fun _ _ => ⟨trivial, trivial⟩

namespace Line

variable {σ : Type}

/-- A property of the work done that outlasts what a scan does to it, as long as
pieces are added for scopes that have a property which outlasts more scopes. -/
structure WorkInvariant (scanner : Scanner σ) (Inside : ScopePath → Prop) (Holds : Work σ → Prop) :
    Prop where
  push : ∀ styling path names, Inside path → Inside (path.push styling names)
  produce : ∀ work scopes stop, Inside scopes → Holds work → Holds (work.produce scopes stop)
  next : ∀ work line pos flavour stack, Holds work →
    Holds { work with finder := (scanner.finder.next line pos flavour stack work.finder).2 }
  condition : ∀ work line pos flavour frame, Holds work →
    Holds { work with finder := (scanner.finder.condition line pos flavour frame work.finder).2 }
  warn : ∀ work warning, Holds work →
    Holds { work with finder := scanner.finder.warn warning work.finder }
  number : ∀ work count, Holds work → Holds { work with lineCount := count }
  exhaust : ∀ work, Holds work → Holds { work with outOfSteps := true }

namespace WorkInvariant

variable {Inside : ScopePath → Prop} {Holds : Work σ → Prop} {rescan : Rescan σ} {stack : Stack}
  {cursor : Cursor} {work : Work σ} {scanner : Scanner σ}
  (invariant : WorkInvariant scanner Inside Holds)
include invariant

theorem liesIn_push (lies : stack.LiesIn Inside) (styling : Styling) (rule : RuleId)
    (enteredAt anchor : Option Nat) (tookLineEnd : Bool) (name contentName : Option String) :
    ((stack.push rule enteredAt anchor tookLineEnd (stack.contentScopes.push styling name)).withContentScopes
      ((stack.contentScopes.push styling name).push styling contentName)).LiesIn Inside := by
  intro frame member
  have top := invariant.push styling _ name (lies stack.top List.mem_cons_self).2
  rcases List.mem_cons.mp member with rfl | below
  · exact ⟨top, invariant.push styling _ contentName top⟩
  · exact lies frame below

/-- Every step keeps the property of the scopes of frames. -/
theorem liesIn : StackInvariant scanner (Stack.LiesIn Inside) where
  enter line cursor found id rule lies _ := by
    have entered := invariant.liesIn_push lies scanner.styling id (some cursor.pos) cursor.anchor
      (found.stop = line.byteSize) (resolvedName (scanner.grammar.rule id).name line found.spans)
      (resolvedName rule.contentName line found.spans)
    unfold enteredStack
    split
    · intro frame member
      rcases List.mem_cons.mp member with rfl | below
      · have top := entered _ List.mem_cons_self
        exact top
      · exact entered _ (List.mem_cons_of_mem _ below)
    · exact entered
  close stack lies frame member := by
    rcases List.mem_cons.mp member with rfl | below
    · have name := (lies stack.top List.mem_cons_self).1
      exact ⟨name, name⟩
    · exact lies frame (List.mem_cons_of_mem _ below)
  pop stack lies := by
    obtain ⟨top, rest⟩ := stack
    cases rest with
    | nil => exact lies
    | cons below rest => exact fun frame member => lies frame (List.mem_cons_of_mem _ member)

theorem produceTop (lies : stack.LiesIn Inside) (holds : Holds work) (stop : Nat) :
    Holds (work.produceTop stack stop) :=
  invariant.produce work _ stop (lies stack.top List.mem_cons_self).2 holds

section Groups

variable {groups : List OpenGroup}

theorem closeGroups (opened : ∀ group ∈ groups, Inside group.scopes) (holds : Holds work)
    (start : Nat) :
    Holds { work with pieces := (closeGroups start groups work.pieces).2 } ∧
      ∀ group ∈ (Line.closeGroups start groups work.pieces).1, Inside group.scopes := by
  induction groups generalizing work with
  | nil => exact ⟨holds, opened⟩
  | cons group outer ih =>
    rw [Line.closeGroups]
    split
    · exact ih (fun inner among => opened inner (List.mem_cons_of_mem _ among))
        (invariant.produce work _ _ (opened group List.mem_cons_self) holds)
    · exact ⟨holds, opened⟩

theorem closeAllGroups (opened : ∀ group ∈ groups, Inside group.scopes) (holds : Holds work) :
    Holds { work with pieces := closeAllGroups groups work.pieces } := by
  induction groups generalizing work with
  | nil => exact holds
  | cons group outer ih =>
    exact ih (fun inner among => opened inner (List.mem_cons_of_mem _ among))
      (invariant.produce work _ _ (opened group List.mem_cons_self) holds)

omit invariant in
/-- Scanning again keeps the property. -/
def Rescans (Inside : ScopePath → Prop) (Holds : Work σ → Prop) (rescan : Rescan σ) : Prop :=
  ∀ line isFirst pos stack work, stack.LiesIn Inside → Holds work →
    Holds (rescan line isFirst pos stack work)

variable (rescans : Rescans Inside Holds rescan)
include rescans

/-- Beginning a group keeps the property, and the scopes of open groups inside. -/
theorem beginGroup (lies : stack.LiesIn Inside)
    (opened : ∀ group ∈ groups, Inside group.scopes) (holds : Holds work) (line : SourceLine)
    (isFirst : Bool) (spans : Spans) (rule : CaptureRule) (span : Span) :
    Holds (beginGroup scanner rescan line isFirst stack spans rule span groups work).2 ∧
      ∀ group ∈ (Line.beginGroup scanner rescan line isFirst stack spans rule span groups work).1,
        Inside group.scopes := by
  obtain ⟨closed, opened⟩ := invariant.closeGroups opened holds span.start
  unfold Line.beginGroup
  generalize Line.closeGroups span.start groups work.pieces = after at closed opened ⊢
  obtain ⟨groups, pieces⟩ := after
  have innermost : Inside (innermostScopes stack groups) := by
    cases groups with
    | nil => exact (lies stack.top List.mem_cons_self).2
    | cons group outer => exact opened group List.mem_cons_self
  have produced := invariant.produce _ _ span.start innermost closed
  cases rule.retokenize with
  | some retokenize =>
    refine ⟨rescans _ _ _ _ _ ?_ (invariant.number _ _ produced), opened⟩
    exact invariant.liesIn_push lies scanner.styling retokenize (some span.start) none false _ _
  | none =>
    simp only
    split
    · exact ⟨produced, opened⟩
    · refine ⟨produced, fun group among => ?_⟩
      rcases List.mem_cons.mp among with rfl | among
      · exact invariant.push scanner.styling _ (some _) innermost
      · exact opened group among

/-- Walking through the groups of a match keeps the property. -/
theorem walkGroups (lies : stack.LiesIn Inside)
    (opened : ∀ group ∈ groups, Inside group.scopes) (holds : Holds work) (line : SourceLine)
    (isFirst : Bool) (captures : CaptureTable) (spans : Spans) (last : Nat) (numbers : List Nat) :
    Holds (walkGroups scanner rescan line isFirst stack captures spans last numbers groups work).2 ∧
      ∀ group ∈ (Line.walkGroups scanner rescan line isFirst stack captures spans last numbers groups
        work).1, Inside group.scopes := by
  induction numbers generalizing groups work with
  | nil => exact ⟨holds, opened⟩
  | cons number numbers ih =>
    rw [Line.walkGroups]
    split
    · exact ih opened holds
    · split
      · exact ⟨holds, opened⟩
      · obtain ⟨begun, stillOpened⟩ :=
          invariant.beginGroup rescans lies opened holds line isFirst spans _ _
        exact ih stillOpened begun

theorem produceCaptures (lies : stack.LiesIn Inside) (holds : Holds work) (line : SourceLine)
    (isFirst : Bool) (captures : CaptureTable) (spans : Spans) :
    Holds (produceCaptures scanner rescan line isFirst stack captures spans work) := by
  unfold Line.produceCaptures
  split
  · exact holds
  next whole _ =>
    have none : ∀ group ∈ ([] : List OpenGroup), Inside group.scopes := by simp
    obtain ⟨walked, opened⟩ := invariant.walkGroups rescans lies none holds line isFirst captures
      spans whole.stop (List.range (min captures.size spans.size))
    exact invariant.closeAllGroups opened walked

end Groups

theorem giveUp (lies : stack.LiesIn Inside) (holds : Holds work) (line : SourceLine)
    (warning : Warning) : Holds (giveUp scanner line warning stack work).work :=
  invariant.produceTop lies (invariant.warn _ _ holds) _

theorem warnAll (holds : Holds work) (warnings : List Warning) :
    Holds { work with
      finder := warnings.foldl (fun state warning => scanner.finder.warn warning state) work.finder } := by
  induction warnings generalizing work with
  | nil => exact holds
  | cons warning warnings ih => exact ih (invariant.warn work warning holds)

theorem resolveEnding (holds : Holds work) (pattern : PatternId) (hasReferences : Bool)
    (line : SourceLine) (spans : Spans) (stack : Stack) :
    Holds (resolveEnding scanner pattern hasReferences line spans stack work).2 := by
  unfold Line.resolveEnding
  split
  · exact invariant.warnAll holds _
  · exact holds

section Steps

variable (rescans : Rescans Inside Holds rescan)
include rescans

/-- Leaving a rule keeps the property. -/
theorem leaveRule (lies : cursor.stack.LiesIn Inside) (holds : Holds work) (line : SourceLine)
    (found : Match) : Holds (leaveRule scanner rescan line cursor found work).work := by
  have closed : cursor.stack.closing.LiesIn Inside :=
    invariant.liesIn.close _ lies
  have started := invariant.produceTop lies holds found.start
  have captured := invariant.produceCaptures rescans closed started line cursor.isFirst
    (stopCapturesOf (scanner.grammar.rule cursor.stack.closing.top.rule)) found.spans
  have ended := invariant.produceTop closed captured found.stop
  unfold Line.leaveRule
  simp only
  split
  · exact invariant.giveUp closed ended line _
  · exact ended

/-- Entering a rule keeps the property. -/
theorem enterRule (lies : cursor.stack.LiesIn Inside) (holds : Holds work) (line : SourceLine)
    (found : Match) (id : RuleId) :
    Holds (enterRule scanner rescan line cursor found id work).work := by
  have pushed := invariant.liesIn_push lies scanner.styling id (some cursor.pos) cursor.anchor
    (found.stop = line.byteSize) (resolvedName (scanner.grammar.rule id).name line found.spans) none
  have started := invariant.produceTop lies holds found.start
  have captured (captures : CaptureTable) := invariant.produceTop pushed
    (invariant.produceCaptures rescans pushed started line cursor.isFirst
      captures found.spans) found.stop
  unfold Line.enterRule
  simp only
  split
  next rule _ =>
    have resolved := invariant.resolveEnding (captured rule.startCaptures) rule.ending
      rule.endingHasReferences line found.spans
    unfold enterSpanning
    simp only
    split
    · refine invariant.giveUp ?_ (resolved _) line _
      rw [resolveEnding_stack]
      split <;> exact lies
    · exact resolved _
  · unfold matchSingle
    simp only
    split
    · exact invariant.giveUp (invariant.liesIn.pop _ lies) (captured _) line _
    · exact captured _

/-- What holds once the finder has been asked for a match holds after the step. -/
theorem afterNext (lies : cursor.stack.LiesIn Inside)
    (asked : Holds { work with finder :=
      (scanner.finder.next line cursor.pos cursor.flavour cursor.stack work.finder).2 }) :
    Holds (step scanner rescan line cursor work).work := by
  unfold Line.step
  simp only
  split
  · exact invariant.produceTop lies asked line.byteSize
  · split
    · exact invariant.leaveRule rescans lies asked line _
    · exact invariant.enterRule rescans lies asked line _ _

theorem step (lies : cursor.stack.LiesIn Inside) (holds : Holds work) (line : SourceLine) :
    Holds (step scanner rescan line cursor work).work :=
  invariant.afterNext rescans lies
    (invariant.next work line cursor.pos cursor.flavour cursor.stack holds)

/-- A whole scan keeps the property, by what each of its steps keeps. -/
theorem scanFrom (lies : cursor.stack.LiesIn Inside) (holds : Holds work) (line : SourceLine)
    (expired : Nat → Bool) (steps : Nat) :
    Holds (scanFrom scanner rescan expired line steps cursor work).work := by
  induction steps generalizing cursor work with
  | zero => exact invariant.exhaust work holds
  | succ steps ih =>
    rw [Line.scanFrom]
    split
    · exact invariant.produceTop lies holds line.byteSize
    · have course := step_course scanner rescan line cursor work
      have taken := invariant.step rescans lies holds line
      generalize Line.step scanner rescan line cursor work = step at course taken
      cases step with
      | done stack work => exact taken
      | next next work => exact ih (invariant.liesIn.next course lies) taken

/-- What holds once the finder has been asked for a condition holds after its check. -/
theorem afterCondition (lies : stack.LiesIn Inside)
    (asked : Holds { work with finder :=
      (scanner.finder.condition line cursor.pos cursor.flavour stack.top work.finder).2 })
    (rule : BlockRule) : Holds (checkCondition scanner rescan line cursor stack rule work).2 := by
  unfold Line.checkCondition
  simp only
  split
  · exact asked
  · exact invariant.produceTop lies
      (invariant.produceCaptures rescans lies (invariant.produceTop lies asked _) line _ _ _) _

theorem checkCondition (lies : stack.LiesIn Inside) (holds : Holds work) (line : SourceLine)
    (cursor : Cursor) (rule : BlockRule) :
    Holds (checkCondition scanner rescan line cursor stack rule work).2 :=
  invariant.afterCondition rescans lies
    (invariant.condition work line cursor.pos cursor.flavour stack.top holds) rule

/-- Checking all conditions keeps the property. -/
theorem checkAll (blocks : List (Stack × BlockRule))
    (lies : ∀ block ∈ blocks, block.1.LiesIn Inside) (holds : Holds work) (line : SourceLine)
    (cursor : Cursor) : Holds (checkAll scanner rescan line blocks cursor work).2 := by
  induction blocks generalizing cursor work with
  | nil => exact holds
  | cons block blocks ih =>
    obtain ⟨stack, rule⟩ := block
    have checked := invariant.checkCondition rescans (lies _ List.mem_cons_self)
      holds line cursor rule
    rw [Line.checkAll]
    generalize Line.checkCondition scanner rescan line cursor stack rule work = result at checked ⊢
    obtain ⟨_ | next, work⟩ := result
    · exact checked
    · exact ih (fun block among => lies block (List.mem_cons_of_mem _ among)) checked next

end Steps

theorem rescanGroup (depth : Nat) : Rescans Inside Holds (rescanGroup scanner depth) := by
  induction depth with
  | zero => exact fun _ _ _ _ work _ holds => invariant.exhaust work holds
  | succ depth ih =>
    intro line isFirst pos stack work lies holds
    exact invariant.scanFrom ih lies holds line _ _

/-- What outlasts all that a scan does to its work outlasts the scan of a line. -/
theorem scan (lies : stack.LiesIn Inside) (holds : Holds work) (depth : Nat)
    (expired : Nat → Bool) (line : SourceLine) (isFirst : Bool) :
    Holds (scan scanner depth expired line isFirst stack work).work := by
  have rescans := invariant.rescanGroup depth
  have pop := invariant.liesIn.pop
  refine invariant.scanFrom rescans ?_ ?_ line expired _
  · exact checkConditions_holds pop lies _ line isFirst work
  · exact invariant.checkAll rescans _ (blocksOf_holds pop _ _ _ lies) holds line _

end WorkInvariant

/-- A property of scopes that outlasts more scopes is one of the scopes of all pieces. -/
theorem pieces_invariant (scanner : Scanner σ) {Inside : ScopePath → Prop}
    (push : ∀ styling path names, Inside path → Inside (path.push styling names)) :
    WorkInvariant scanner Inside fun work : Work σ => ∀ piece ∈ work.pieces.items.toList, Inside piece.scopes where
  push := push
  produce work scopes stop inside all := by
    unfold Work.produce Pieces.produce
    split
    · exact all
    · intro piece member
      rw [Array.toList_push] at member
      rcases List.mem_append.mp member with old | new
      · exact all piece old
      · rw [List.mem_singleton.mp new]
        exact inside
  next _ _ _ _ _ all := all
  condition _ _ _ _ _ all := all
  warn _ _ all := all
  number _ _ all := all
  exhaust _ all := all

end Line
end ScopeLexer

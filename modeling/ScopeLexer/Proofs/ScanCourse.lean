import ScopeLexer.Line.Scan

/-! What a step of a scan can do. Where a step leads depends on the match that
was found and on nothing else that the scan has done so far: seven courses are
open to it, three of which go on. A property of stacks that outlasts entering,
leaving and closing a rule therefore outlasts the scan of a line, the check of
conditions before it included. -/
namespace ScopeLexer

open Grammar Pattern Regex

namespace Stack

/-- The stack in which the end of the rule at the top is handled. -/
def closing (stack : Stack) : Stack := stack.withContentScopes stack.top.nameScopes

end Stack

namespace Line

/-- The work done once a step is taken. -/
def Step.work {σ : Type} : Step σ → Work σ
  | .next _ work => work
  | .done _ work => work

variable {σ : Type} {scanner : Scanner σ} {line : SourceLine} {cursor : Cursor} {work : Work σ}
  {rescan : Rescan σ}

/-- The stack once a rule for more than one match has been entered. -/
def enteredStack (scanner : Scanner σ) (line : SourceLine) (cursor : Cursor) (found : Match)
    (id : RuleId) (rule : Spanning) : Stack :=
  let nameScopes := cursor.stack.contentScopes.push scanner.styling
    (resolvedName (scanner.grammar.rule id).name line found.spans)
  let stack := (cursor.stack.push id (some cursor.pos) cursor.anchor (found.stop = line.byteSize)
    nameScopes).withContentScopes
      (nameScopes.push scanner.styling (resolvedName rule.contentName line found.spans))
  if rule.endingHasReferences then
    stack.withEnding (resolve ((scanner.grammar.patterns[rule.ending]?.map Pattern.source).getD "")
      line found.spans).1
  else stack

theorem enteredStack_pop (scanner : Scanner σ) (line : SourceLine) (cursor : Cursor) (found : Match)
    (id : RuleId) (rule : Spanning) :
    (enteredStack scanner line cursor found id rule).pop = cursor.stack := by
  unfold enteredStack
  simp only
  split <;> rfl

/-- Where a step can lead, by the match that was found. -/
inductive Course (scanner : Scanner σ) (line : SourceLine) (cursor : Cursor) :
    Option Match → Step σ → Prop where
  /-- Nothing matches. -/
  | finished (work : Work σ) : Course scanner line cursor none (.done cursor.stack work)
  /-- The rule at the top is left. -/
  | left (leaves : found.target = .leave)
    (moves : cursor.pos < found.stop ∨ cursor.stack.top.enteredAt ≠ some cursor.pos)
    (work : Work σ) :
    Course scanner line cursor (some found)
      (.next (Cursor.advance { cursor with
        stack := cursor.stack.closing.pop, anchor := cursor.stack.top.anchor } found.stop) work)
  /-- The rule at the top would be left where it was entered, for ever. -/
  | leftInPlace (leaves : found.target = .leave) (stays : found.stop ≤ cursor.pos)
    (here : cursor.stack.top.enteredAt = some cursor.pos) (work : Work σ) :
    Course scanner line cursor (some found) (.done cursor.stack.closing work)
  /-- A rule for more than one match is entered. -/
  | entered {id : RuleId} (enters : found.target = .enter id)
    (spans : spanning? (scanner.grammar.rule id) = some rule)
    (moves : cursor.pos < found.stop ∨
      cursor.stack.hasEntered (enteredStack scanner line cursor found id rule).top = false)
    (work : Work σ) :
    Course scanner line cursor (some found)
      (.next (Cursor.advance { cursor with
        stack := enteredStack scanner line cursor found id rule
        anchor := some found.stop } found.stop) work)
  /-- A rule for more than one match would be entered at one byte, for ever. -/
  | enteredInPlace {id : RuleId} (enters : found.target = .enter id)
    (spans : spanning? (scanner.grammar.rule id) = some rule) (stays : found.stop ≤ cursor.pos)
    (again : cursor.stack.hasEntered (enteredStack scanner line cursor found id rule).top = true)
    (work : Work σ) :
    Course scanner line cursor (some found) (.done cursor.stack work)
  /-- A rule matches within the line. -/
  | matched {id : RuleId} (enters : found.target = .enter id)
    (single : spanning? (scanner.grammar.rule id) = none) (moves : cursor.pos < found.stop)
    (work : Work σ) :
    Course scanner line cursor (some found) (.next (cursor.advance found.stop) work)
  /-- A rule matches nothing, for ever. -/
  | matchedInPlace {id : RuleId} (enters : found.target = .enter id)
    (single : spanning? (scanner.grammar.rule id) = none) (stays : found.stop ≤ cursor.pos)
    (work : Work σ) :
    Course scanner line cursor (some found) (.done cursor.stack.pop work)

/-- Leaving a rule pops the stack or gives up. -/
theorem leaveRule_course (leaves : found.target = .leave) :
    Course scanner line cursor (some found) (leaveRule scanner rescan line cursor found work) := by
  unfold leaveRule
  simp only
  split
  next stays =>
    simp only [Bool.and_eq_true, decide_eq_true_eq] at stays
    exact .leftInPlace leaves stays.1 stays.2 _
  next moves =>
    simp only [Bool.and_eq_true, decide_eq_true_eq, not_and] at moves
    refine .left leaves ?_ _
    by_cases ahead : cursor.pos < found.stop
    · exact .inl ahead
    · exact .inr (moves (Nat.le_of_not_lt ahead))

theorem resolveEnding_stack (scanner : Scanner σ) (pattern : PatternId) (hasReferences : Bool)
    (line : SourceLine) (spans : Spans) (stack : Stack) (work : Work σ) :
    (resolveEnding scanner pattern hasReferences line spans stack work).1 =
      if hasReferences then
        stack.withEnding (resolve ((scanner.grammar.patterns[pattern]?.map Pattern.source).getD "")
          line spans).1
      else stack := by
  unfold resolveEnding
  split <;> rfl

/-- Entering a rule pushes a frame, matches within the line or gives up. -/
theorem enterRule_course {id : RuleId} (enters : found.target = .enter id) :
    Course scanner line cursor (some found) (enterRule scanner rescan line cursor found id work) := by
  unfold enterRule
  simp only
  cases spans : spanning? (scanner.grammar.rule id) with
  | none =>
    simp only [matchSingle]
    split
    next stays => exact .matchedInPlace enters spans stays _
    next moves => exact .matched enters spans (Nat.lt_of_not_le moves) _
  | some rule =>
    have back := enteredStack_pop scanner line cursor found id rule
    simp only [enterSpanning]
    split
    next stays =>
      rw [resolveEnding_stack] at stays ⊢
      simp only [Bool.and_eq_true, decide_eq_true_eq] at stays
      have done := Course.enteredInPlace enters spans stays.1 stays.2
      rw [← back] at done
      exact done _
    next moves =>
      rw [resolveEnding_stack] at moves ⊢
      simp only [Bool.and_eq_true, decide_eq_true_eq, not_and, Bool.not_eq_true] at moves
      refine .entered enters spans ?_ _
      by_cases ahead : cursor.pos < found.stop
      · exact .inl ahead
      · exact .inr (moves (Nat.le_of_not_lt ahead))

/-- A step takes one of the courses open to it. -/
theorem step_course (scanner : Scanner σ) (rescan : Rescan σ) (line : SourceLine) (cursor : Cursor)
    (work : Work σ) :
    Course scanner line cursor
      (scanner.finder.next line cursor.pos cursor.flavour cursor.stack work.finder).1
      (step scanner rescan line cursor work) := by
  unfold step
  simp only
  cases (scanner.finder.next line cursor.pos cursor.flavour cursor.stack work.finder).1 with
  | none => exact .finished _
  | some found =>
    cases target : found.target with
    | leave =>
      simp only [target]
      exact leaveRule_course target
    | enter id =>
      simp only [target]
      exact enterRule_course target

/-- A property of stacks that outlasts entering, closing and leaving a rule. -/
structure StackInvariant (scanner : Scanner σ) (Holds : Stack → Prop) : Prop where
  enter : ∀ line cursor found id rule, Holds cursor.stack →
    spanning? (scanner.grammar.rule id) = some rule →
    Holds (enteredStack scanner line cursor found id rule)
  close : ∀ stack, Holds stack → Holds stack.closing
  pop : ∀ stack, Holds stack → Holds stack.pop

@[simp]
theorem Cursor.stack_advance (cursor : Cursor) (stop : Nat) :
    (cursor.advance stop).stack = cursor.stack := by
  unfold Cursor.advance
  split <;> rfl

variable {Holds : Stack → Prop}

/-- A step keeps what every stack on the way has. -/
theorem StackInvariant.next (invariant : StackInvariant scanner Holds) {next : Cursor}
    (course : Course scanner line cursor found (.next next work)) (holds : Holds cursor.stack) :
    Holds next.stack := by
  cases course with
  | left leaves moves =>
    rw [Cursor.stack_advance]
    exact invariant.pop _ (invariant.close _ holds)
  | entered enters spans moves =>
    rw [Cursor.stack_advance]
    exact invariant.enter _ _ _ _ _ holds spans
  | matched enters single moves =>
    rw [Cursor.stack_advance]
    exact holds

theorem StackInvariant.done (invariant : StackInvariant scanner Holds)
    (course : Course scanner line cursor found (.done stack work)) (holds : Holds cursor.stack) :
    Holds stack := by
  cases course with
  | finished => exact holds
  | leftInPlace leaves stays here => exact invariant.close _ holds
  | enteredInPlace enters spans stays again => exact holds
  | matchedInPlace enters single stays => exact invariant.pop _ holds

/-- A whole scan keeps what every stack on the way has. -/
theorem StackInvariant.scanFrom (invariant : StackInvariant scanner Holds)
    (holds : Holds cursor.stack) (rescan : Rescan σ) (expired : Nat → Bool) (line : SourceLine)
    (steps : Nat) (work : Work σ) :
    Holds (scanFrom scanner rescan expired line steps cursor work).stack := by
  induction steps generalizing cursor work with
  | zero => exact holds
  | succ steps ih =>
    rw [Line.scanFrom]
    split
    · exact holds
    · have course := step_course scanner rescan line cursor work
      generalize step scanner rescan line cursor work = taken at course ⊢
      cases taken with
      | next next work => exact ih (invariant.next course holds) work
      | done stack work => exact invariant.done course holds

/-- What pops keep holds of every frame that has a condition. -/
theorem blocksOf_holds (pop : ∀ stack, Holds stack → Holds stack.pop) (grammar : CompiledGrammar)
    (frame : Frame) (rest : List Frame) (holds : Holds ⟨frame, rest⟩) :
    ∀ block ∈ blocksOf grammar (frame :: rest), Holds block.1 := by
  induction rest generalizing frame with
  | nil =>
    intro block member
    rw [blocksOf] at member
    cases rule : grammar.rule frame.rule with
    | block held =>
      simp only [rule, blocksOf, List.nil_append, List.mem_singleton] at member
      rw [member]
      exact holds
    | single | group | region | capture | reserved => simp [rule, blocksOf] at member
  | cons below rest ih =>
    intro block member
    rw [blocksOf] at member
    rcases List.mem_append.mp member with outer | own
    · exact ih below (pop _ holds) block outer
    · cases rule : grammar.rule frame.rule with
      | block held =>
        simp only [rule, List.mem_singleton] at own
        rw [own]
        exact holds
      | single | group | region | capture | reserved => simp [rule] at own

/-- A condition that holds leaves the stack as it is. -/
theorem stack_of_checkCondition
    (checked : (checkCondition scanner rescan line cursor stack rule work).1 = some next) :
    next.stack = cursor.stack := by
  unfold checkCondition at checked
  simp only at checked
  split at checked
  · cases checked
  · cases checked
    exact Cursor.stack_advance ..

/-- The check of conditions leaves the stack as it is, or leaves rules. -/
theorem checkConditions_holds (pop : ∀ stack, Holds stack → Holds stack.pop) (holds : Holds stack)
    (rescan : Rescan σ) (line : SourceLine) (isFirst : Bool) (work : Work σ) :
    Holds (checkConditions scanner rescan line isFirst stack work).1.stack := by
  have all (blocks : List (Stack × BlockRule)) (cursor : Cursor) (work : Work σ)
      (inside : ∀ block ∈ blocks, Holds block.1) (holds : Holds cursor.stack) :
      Holds (checkAll scanner rescan line blocks cursor work).1.stack := by
    induction blocks generalizing cursor work with
    | nil => exact holds
    | cons block blocks ih =>
      obtain ⟨stack, rule⟩ := block
      have kept (next : Cursor)
          (checked : (checkCondition scanner rescan line cursor stack rule work).1 = some next) :=
        stack_of_checkCondition checked
      rw [checkAll]
      generalize checkCondition scanner rescan line cursor stack rule work = result at kept ⊢
      obtain ⟨_ | next, left⟩ := result
      · exact pop _ (inside _ List.mem_cons_self)
      · apply ih _ _ fun block member => inside block (List.mem_cons_of_mem _ member)
        rwa [kept next rfl]
  exact all _ _ work (blocksOf_holds pop _ _ _ holds) holds

theorem StackInvariant.scan (invariant : StackInvariant scanner Holds) (holds : Holds stack)
    (depth : Nat) (expired : Nat → Bool) (line : SourceLine) (isFirst : Bool) (work : Work σ) :
    Holds (scan scanner depth expired line isFirst stack work).stack :=
  invariant.scanFrom (checkConditions_holds invariant.pop holds _ _ _ _) _ _ _ _ _

end Line
end ScopeLexer

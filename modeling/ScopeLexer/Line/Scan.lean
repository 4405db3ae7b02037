import ScopeLexer.Line.Capture

/-!
The scan of a line. Before it, the conditions of the rules entered on earlier lines are checked. Then
one match after the other is found and handled: a rule is entered, left, or matches within the line.
Matches may be empty; where rules would be entered and left for ever at one byte, the scan gives up and
the rest of the line gets the scopes reached.
-/
namespace ScopeLexer.Line

open Grammar Pattern Regex

/-- How far a scan has come. -/
structure Cursor where
  stack : Stack
  /-- The byte from which the next match is sought. -/
  pos : Nat
  /-- The byte at which `\G` holds. -/
  anchor : Option Nat := none
  /-- The line is the first of its document, and nothing of it has been matched. -/
  isFirst : Bool
  deriving Repr, DecidableEq, Inhabited

namespace Cursor

/-- The flavour of the patterns to search with. -/
def flavour (cursor : Cursor) : Flavour := .ofSearch cursor.isFirst cursor.anchor cursor.pos

/-- Goes on after a match that ends at a byte. -/
def advance (cursor : Cursor) (stop : Nat) : Cursor :=
  if cursor.pos < stop then { cursor with pos := stop, isFirst := false } else cursor

end Cursor

inductive Step (σ : Type) where
  /-- The scan goes on. -/
  | next (cursor : Cursor) (work : Work σ)
  /-- The scan is over. -/
  | done (stack : Stack) (work : Work σ)

/-- The end of a scan. -/
structure Outcome (σ : Type) where
  stack : Stack
  work : Work σ
  /-- The time was over before the end of the line. -/
  stoppedEarly : Bool := false

section

variable {σ : Type} (scanner : Scanner σ)

/-- Gives up: the rest of the line gets the scopes reached. -/
def giveUp (line : SourceLine) (warning : Warning) (stack : Stack) (work : Work σ) : Step σ :=
  .done stack ({ work with finder := scanner.finder.warn warning work.finder }.produceTop stack
    line.byteSize)

/-- The rules for the groups of the end of a rule. -/
def stopCapturesOf (rule : Rule) : CaptureTable :=
  match rule with
  | .region rule => rule.stopCaptures
  | _ => {}

/-- Leaves the rule at the top, whose end has matched. -/
def leaveRule (rescan : Rescan σ) (line : SourceLine) (cursor : Cursor) (found : Match)
    (work : Work σ) : Step σ :=
  let work := work.produceTop cursor.stack found.start
  let stack := cursor.stack.withContentScopes cursor.stack.top.nameScopes
  let captures := stopCapturesOf (scanner.grammar.rule stack.top.rule)
  let work := produceCaptures scanner rescan line cursor.isFirst stack captures found.spans work
  let work := work.produceTop stack found.stop
  if found.stop ≤ cursor.pos && stack.top.enteredAt = some cursor.pos then
    giveUp scanner line .leftWithoutAdvancing stack work
  else
    .next ({ cursor with stack := stack.pop, anchor := stack.top.anchor }.advance found.stop) work

/-- Gives the top frame the end or the condition that a match has resolved. -/
def resolveEnding (pattern : PatternId) (hasReferences : Bool) (line : SourceLine) (spans : Spans)
    (stack : Stack) (work : Work σ) : Stack × Work σ :=
  if hasReferences then
    let template := (scanner.grammar.patterns[pattern]?.map Pattern.source).getD ""
    let (text, warnings) := resolve template line spans
    (stack.withEnding text,
      { work with
        finder := warnings.foldl (fun state warning => scanner.finder.warn warning state)
          work.finder })
  else (stack, work)

/-- A rule that is entered for more than one match. -/
structure Spanning where
  contentName : Option String
  startCaptures : CaptureTable
  /-- The end or the condition. -/
  ending : PatternId
  endingHasReferences : Bool
  /-- What to say if the rule is entered for ever. -/
  warning : Warning

/-- What there is to know of a rule that is entered for more than one match. -/
def spanning? : Rule → Option Spanning
  | .region rule =>
    some ⟨rule.contentName, rule.startCaptures, rule.stop, rule.stopHasReferences, .enteredEndAgain⟩
  | .block rule =>
    some ⟨rule.contentName, rule.startCaptures, rule.condition, rule.conditionHasReferences,
      .enteredWhileAgain⟩
  | _ => none

/-- Enters a rule for more than one match. `stack` has its frame on top already. -/
def enterSpanning (rescan : Rescan σ) (line : SourceLine) (cursor : Cursor) (found : Match)
    (rule : Spanning) (stack : Stack) (work : Work σ) : Step σ :=
  let work :=
    produceCaptures scanner rescan line cursor.isFirst stack rule.startCaptures found.spans work
  let work := work.produceTop stack found.stop
  let contentName := resolvedName rule.contentName line found.spans
  let stack := stack.withContentScopes (stack.top.nameScopes.push scanner.styling contentName)
  let (stack, work) :=
    resolveEnding scanner rule.ending rule.endingHasReferences line found.spans stack work
  if found.stop ≤ cursor.pos && cursor.stack.hasEntered stack.top then
    giveUp scanner line rule.warning stack.pop work
  else .next ({ cursor with stack := stack, anchor := some found.stop }.advance found.stop) work

/-- The rules for the groups of a match within a line. -/
def capturesOf (rule : Rule) : CaptureTable :=
  match rule with
  | .single rule => rule.captures
  | _ => {}

/-- Handles a match within a line. `stack` has the frame of the rule on top, for as long as its groups
are handled. -/
def matchSingle (rescan : Rescan σ) (line : SourceLine) (cursor : Cursor) (found : Match)
    (rule : Rule) (stack : Stack) (work : Work σ) : Step σ :=
  let work :=
    produceCaptures scanner rescan line cursor.isFirst stack (capturesOf rule) found.spans work
  let work := work.produceTop stack found.stop
  if found.stop ≤ cursor.pos then giveUp scanner line .matchedNothing stack.pop.pop work
  else .next ({ cursor with stack := stack.pop }.advance found.stop) work

/-- Handles a match of a rule. -/
def enterRule (rescan : Rescan σ) (line : SourceLine) (cursor : Cursor) (found : Match)
    (id : RuleId) (work : Work σ) : Step σ :=
  let rule := scanner.grammar.rule id
  let work := work.produceTop cursor.stack found.start
  let nameScopes :=
    cursor.stack.contentScopes.push scanner.styling (resolvedName rule.name line found.spans)
  let stack := cursor.stack.push id (some cursor.pos) cursor.anchor
    (found.stop = line.byteSize) nameScopes
  match spanning? rule with
  | some spanning => enterSpanning scanner rescan line cursor found spanning stack work
  | none => matchSingle scanner rescan line cursor found rule stack work

/-- Finds the next match and handles it. -/
def step (rescan : Rescan σ) (line : SourceLine) (cursor : Cursor) (work : Work σ) : Step σ :=
  let (found, state) :=
    scanner.finder.next line cursor.pos cursor.flavour cursor.stack work.finder
  let work := { work with finder := state }
  match found with
  | none => .done cursor.stack (work.produceTop cursor.stack line.byteSize)
  | some found =>
    match found.target with
    | .leave => leaveRule scanner rescan line cursor found work
    | .enter rule => enterRule scanner rescan line cursor found rule work

/-- Takes steps until the scan is over. `expired` says, by the number of steps left, whether the time
is over. -/
def scanFrom (rescan : Rescan σ) (expired : Nat → Bool) (line : SourceLine) :
    Nat → Cursor → Work σ → Outcome σ
  | 0, cursor, work => ⟨cursor.stack, { work with outOfSteps := true }, false⟩
  | steps + 1, cursor, work =>
    if expired steps then ⟨cursor.stack, work.produceTop cursor.stack line.byteSize, true⟩
    else
      match step scanner rescan line cursor work with
      | .done stack work => ⟨stack, work, false⟩
      | .next cursor work => scanFrom rescan expired line steps cursor work

/-- Enough steps for a scan. At one byte each rule is entered at most once without a match that takes
something, and a frame is left at most once. -/
def stepBound (line : SourceLine) (stack : Stack) : Nat :=
  stack.frames.length + 2 * (line.byteSize + 1) * (scanner.grammar.rules.size + 2) + 1

/-- Scans the text of a group again. The first argument bounds the depth of groups in groups. -/
def rescanGroup : Nat → Rescan σ
  | 0, _, _, _, _, work => { work with outOfSteps := true }
  | depth + 1, line, isFirst, pos, stack, work =>
    (scanFrom scanner (rescanGroup depth) (fun _ => false) line (stepBound scanner line stack)
      { stack := stack, pos := pos, isFirst := isFirst } work).work

/-- Checks the condition of a rule. `stack` has its frame on top. Nothing is given if the condition
does not hold. -/
def checkCondition (rescan : Rescan σ) (line : SourceLine) (cursor : Cursor) (stack : Stack)
    (rule : BlockRule) (work : Work σ) : Option Cursor × Work σ :=
  let (found, state) :=
    scanner.finder.condition line cursor.pos cursor.flavour stack.top work.finder
  let work := { work with finder := state }
  match found with
  | none => (none, work)
  | some found =>
    let work := work.produceTop stack found.start
    let work := produceCaptures scanner rescan line cursor.isFirst stack rule.conditionCaptures
      found.spans work
    let work := work.produceTop stack found.stop
    (some ({ cursor with anchor := some found.stop }.advance found.stop), work)

/-- Checks conditions, the outermost first. Each state has the frame of its rule on top. The rule of
the first that does not hold is left, with all inside it. -/
def checkAll (rescan : Rescan σ) (line : SourceLine) :
    List (Stack × BlockRule) → Cursor → Work σ → Cursor × Work σ
  | [], cursor, work => (cursor, work)
  | (stack, rule) :: inner, cursor, work =>
    match checkCondition scanner rescan line cursor stack rule work with
    | (none, work) => ({ cursor with stack := stack.pop }, work)
    | (some cursor, work) => checkAll rescan line inner cursor work

/-- The states whose top frame has a condition, the outermost first. -/
def blocksOf (grammar : CompiledGrammar) : List Frame → List (Stack × BlockRule)
  | [] => []
  | frame :: rest =>
    blocksOf grammar rest ++
      match grammar.rule frame.rule with
      | .block rule => [(⟨frame, rest⟩, rule)]
      | _ => []

/-- Checks the conditions of all rules entered on earlier lines. -/
def checkConditions (rescan : Rescan σ) (line : SourceLine) (isFirst : Bool) (stack : Stack)
    (work : Work σ) : Cursor × Work σ :=
  checkAll scanner rescan line (blocksOf scanner.grammar stack.frames)
    { stack := stack
      pos := 0
      anchor := if stack.top.tookLineEnd then some 0 else none
      isFirst := isFirst } work

/-- Scans a line, and groups inside one another up to a depth. -/
def scan (depth : Nat) (expired : Nat → Bool) (line : SourceLine) (isFirst : Bool) (stack : Stack)
    (work : Work σ) : Outcome σ :=
  let rescan := rescanGroup scanner depth
  let (cursor, work) := checkConditions scanner rescan line isFirst stack work
  scanFrom scanner rescan expired line (stepBound scanner line cursor.stack) cursor work

end

end ScopeLexer.Line

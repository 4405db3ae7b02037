import ScopeLexer.Proofs.ScopeAdditivity

/-!
Scans that give up. Where a rule would be entered and left, or entered in itself, for ever at one byte, no
step follows: the stack of that step is returned, and the rest of the line gets its content scopes. A rule
that is entered in itself has not been, in the stack that is returned. A rule that is left has been kept,
but the content scopes of its frame have been made those of its name when its end was handled, and they
stay so. That shows if the rule has a name for its content.
-/
namespace ScopeLexer

open Grammar Pattern Regex

namespace Line

section Steps

variable {σ : Type} {scanner : Scanner σ} {rescan : Rescan σ} {line : SourceLine}
  {cursor : Cursor} {work after : Work σ}

/-- The end of a rule that matches nothing where the rule was entered ends the scan. -/
theorem Course.ends_leaving {taken : Step σ} (course : Course scanner line cursor (some found) taken)
    (leaves : found.target = .leave) (stays : found.stop ≤ cursor.pos)
    (here : cursor.stack.top.enteredAt = some cursor.pos) :
    ∃ after, taken = .done cursor.stack.closing after := by
  cases course with
  | leftInPlace _ _ _ after => exact ⟨after, rfl⟩
  | left _ moves => exact absurd here (moves.resolve_left (Nat.not_lt.mpr stays))
  | entered enters | enteredInPlace enters | matched enters | matchedInPlace enters =>
    cases leaves.symm.trans enters

/-- So does the start of a rule that matches nothing where the rule has been entered already. -/
theorem Course.ends_entering {taken : Step σ} {id : RuleId} {rule : Spanning}
    (course : Course scanner line cursor (some found) taken) (enters : found.target = .enter id)
    (spans : spanning? (scanner.grammar.rule id) = some rule) (stays : found.stop ≤ cursor.pos)
    (again : cursor.stack.hasEntered (enteredStack scanner line cursor found id rule).top = true) :
    ∃ after, taken = .done cursor.stack after := by
  cases course with
  | enteredInPlace _ _ _ _ after => exact ⟨after, rfl⟩
  | entered also same moves =>
    cases enters.symm.trans also
    cases spans.symm.trans same
    rw [moves.resolve_left (Nat.not_lt.mpr stays)] at again
    cases again
  | left leaves | leftInPlace leaves => cases leaves.symm.trans enters
  | matched also single | matchedInPlace also single =>
    cases enters.symm.trans also
    cases spans.symm.trans single

theorem leaveRule_done (leaves : found.target = .leave)
    (taken : leaveRule scanner rescan line cursor found work = .done stack after) :
    after.pieces = (handled scanner rescan line cursor found work).pieces.produce
      stack.contentScopes line.byteSize := by
  unfold leaveRule giveUp at taken
  simp only at taken
  split at taken
  · cases taken
    simp only [handled, handlingStack, groupRules, leaves]
    rfl
  · cases taken

/-- Where entering a rule gives up, the rest of the line gets the content scopes of the stack
kept. -/
theorem enterRule_done {id : RuleId} (enters : found.target = .enter id)
    (taken : enterRule scanner rescan line cursor found id work = .done stack after) :
    after.pieces = (handled scanner rescan line cursor found work).pieces.produce
      stack.contentScopes line.byteSize := by
  unfold enterRule at taken
  simp only at taken
  cases spans : spanning? (scanner.grammar.rule id) with
  | some rule =>
    simp only [spans, enterSpanning, giveUp] at taken
    split at taken
    · cases taken
      simp only [Work.produceTop, Work.produce, pieces_resolveEnding]
      simp only [handled, handlingStack, groupRules, enters, spans, Option.map_some,
        Option.getD_some]
      rfl
    · cases taken
  | none =>
    simp only [spans, matchSingle, giveUp] at taken
    split at taken
    · cases taken
      simp only [handled, handlingStack, groupRules, enters, spans, Option.map_none,
        Option.getD_none]
      rfl
    · cases taken

/-- A step that has handled a match and does not go on gives the rest of the line the scopes of the
stack that it returns. -/
theorem step_done
    (answer : (scanner.finder.next line cursor.pos cursor.flavour cursor.stack work.finder).1 =
      some found)
    (taken : step scanner rescan line cursor work = .done stack after) :
    after.pieces = (handled scanner rescan line cursor found { work with
      finder := (scanner.finder.next line cursor.pos cursor.flavour cursor.stack
        work.finder).2 }).pieces.produce stack.contentScopes line.byteSize := by
  unfold step at taken
  simp only [answer] at taken
  split at taken
  next leaves => exact leaveRule_done leaves taken
  next enters => exact enterRule_done enters taken

variable (scanner rescan line) in
/-- The pieces once the match that a step has found has been handled. -/
def Head.produced (head : Head σ) (found : Match) : Pieces :=
  (handled scanner rescan line head.cursor found { head.work with
    finder := (scanner.finder.next line head.cursor.pos head.cursor.flavour head.cursor.stack
      head.work.finder).2 }).pieces

/-- A scan ends with a stack: no step follows, and what has not been produced of the line gets the
content scopes of the stack. -/
structure GivesUp (line : SourceLine) (produced : Pieces) (later : List (Head σ)) (stack : Stack)
    (outcome : Outcome σ) : Prop where
  last : later = []
  returned : outcome.stack = stack
  inTime : outcome.stoppedEarly = false
  rest : outcome.work.pieces = produced.produce stack.contentScopes line.byteSize

variable {expired : Nat → Bool} {steps : Nat} {earlier later : List (Head σ)} {head : Head σ}

/-- The heads from one on are those of a scan from there. -/
theorem heads_from
    (split : heads scanner rescan line expired steps cursor work = earlier ++ head :: later) :
    head :: later = heads scanner rescan line expired (head.steps + 1) head.cursor head.work := by
  induction earlier generalizing steps cursor work with
  | nil =>
    cases steps with
    | zero => cases split
    | succ steps =>
      obtain ⟨rfl, _⟩ := List.cons.inj split
      exact split.symm
  | cons first earlier ih =>
    cases steps with
    | zero => cases split
    | succ steps =>
      obtain ⟨-, rest⟩ := List.cons.inj split
      split at rest
      · simp at rest
      · cases taken : step scanner rescan line cursor work with
        | done stack final => simp [taken] at rest
        | next next after =>
          rw [taken] at rest
          exact ih rest

/-- A step that has handled a match and does not go on is the last. -/
theorem gives_up
    (split : heads scanner rescan line expired steps cursor work = earlier ++ head :: later)
    (inTime : expired head.steps = false) (answer : head.found scanner line = some found)
    (taken : step scanner rescan line head.cursor head.work = .done stack after) :
    GivesUp line (head.produced scanner rescan line found) later stack
      (scanFrom scanner rescan expired line steps cursor work) := by
  obtain ⟨-, goesOn⟩ : True ∧ _ := of_heads split trivial fun _ _ _ _ _ _ => trivial
  have last := heads_from split
  rw [heads, taken] at last
  rw [goesOn, scanFrom, taken]
  simp only [inTime] at last ⊢
  exact ⟨by simpa using last, rfl, rfl, step_done answer taken⟩

end Steps

section Level

/-- The rule gives what lies between its start and its end no name of its own. -/
def Unnamed (grammar : CompiledGrammar) (id : RuleId) : Prop :=
  ∀ rule, spanning? (grammar.rule id) = some rule → rule.contentName = none

/-- The frames of such rules have one list of scopes for their name and for their content. -/
def Level (grammar : CompiledGrammar) (stack : Stack) : Prop :=
  ∀ frame ∈ stack.frames, Unnamed grammar frame.rule → frame.contentScopes = frame.nameScopes

/-- Frames of rules without a content name keep one list of scopes for their name and for their
content. -/
theorem level_invariant {σ : Type} (scanner : Scanner σ) :
    StackInvariant scanner (Level scanner.grammar) where
  enter line cursor found id rule level spans := by
    obtain ⟨frames, ruled, -⟩ := enteredStack_frames scanner line cursor found id rule
    intro frame member unnamed
    rw [frames] at member
    rcases List.mem_cons.mp member with rfl | below
    · rw [ruled] at unnamed
      unfold enteredStack
      simp only [unnamed rule spans]
      split <;> rfl
    · exact level frame below unnamed
  close stack level := by
    intro frame member unnamed
    rcases List.mem_cons.mp member with rfl | below
    · rfl
    · exact level frame (List.mem_cons_of_mem _ below) unnamed
  pop stack level frame member := level frame (mem_frames_pop member)

end Level
end Line

namespace Tokenizer

open Line

variable {tokenizer : Tokenizer} {engine : Engine} {themes : Theme → Prop} {state : Option Stack}
  {text : String} {clock : Clock} {store : Store} {earlier later : List (Head Workspace)}
  {head : Head Workspace}

/-- Whatever lines came before, the stack of every step is level. -/
theorem Reached.level (reached : tokenizer.Reached engine themes state) (theme : Theme)
    (split : tokenizer.heads engine theme state text clock store = earlier ++ head :: later) :
    Level tokenizer.grammar head.cursor.stack := by
  have forgets (stack : Stack) (level : Level tokenizer.grammar stack) :
      Level tokenizer.grammar stack.forgetLine := by
    intro frame member
    have member : frame ∈ stack.frames.map Stack.forgetFrame := member
    obtain ⟨before, among, rfl⟩ := List.mem_map.mp member
    exact level before among
  have initial (theme : Theme) : Level tokenizer.grammar (tokenizer.initialState theme) := by
    intro frame member unnamed
    rw [List.mem_singleton.mp member]
    rfl
  have start : Level tokenizer.grammar (tokenizer.startStack theme state) :=
    reached.holds (fun theme => level_invariant _) initial forgets theme
  have invariant := level_invariant (tokenizer.scanner engine theme)
  let AtHead (cursor : Line.Cursor) (_ : Work Workspace) : Prop :=
    Level tokenizer.grammar cursor.stack
  have started : AtHead (tokenizer.started engine theme state text store).1
      (tokenizer.started engine theme state text store).2 :=
    checkConditions_holds invariant.pop start _ _ _ _
  refine (of_heads split started fun before among level next after taken => ?_).1
  have course := step_course (tokenizer.scanner engine theme) (tokenizer.rescan engine theme)
    (lineOf text) before.cursor before.work
  rw [taken] at course
  exact invariant.next course level

/-- Every character of a line behind what has been produced is in a token with some scopes. -/
def RestHas (scanned : ScannedLine) (produced : Pieces) (scopes : List String) : Prop :=
  ∀ char, scanned.line.byteToChar produced.reached ≤ char → char < contentLength scanned.line →
    ∃ token ∈ scanned.tokens, token.start ≤ char ∧ char < token.stop ∧ token.scopes = scopes

/-- After giving up, the tokens of the rest of the line have the names of the stack kept. -/
theorem restHas_of_givesUp {theme : Theme} {produced : Pieces} {stack : Stack}
    (gives : GivesUp (lineOf text) produced later stack
      (tokenizer.outcome engine theme state text clock store)) :
    RestHas (tokenizer.scanLine engine theme state text clock store).1 produced
      stack.contentScopes.names := by
  intro char starts bound
  have starts : (lineOf text).byteToChar produced.reached ≤ char := starts
  have bound : char < contentLength (lineOf text) := bound
  rw [contentLength_lineOf] at bound
  have last := (lineOf text).byteToChar_of_byteSize_le (Nat.le_refl _)
  rw [charCount_lineOf] at last
  have ahead : produced.reached < (lineOf text).byteSize := by
    refine Nat.lt_of_not_le fun behind => ?_
    have whole := (lineOf text).byteToChar_of_byteSize_le behind
    rw [charCount_lineOf] at whole
    omega
  have member : ⟨produced.reached, (lineOf text).byteSize, stack.contentScopes⟩ ∈
      (tokenizer.outcome engine theme state text clock store).work.pieces.items.toList := by
    rw [gives.rest, Pieces.produce, if_neg (Nat.not_le.mpr ahead), Array.toList_push]
    exact List.mem_append_right _ (List.mem_singleton_self _)
  exact token_of_piece member _ starts (by rw [last]; omega) bound

end Tokenizer

/-- Scans that give up keep their frames. Whatever lines came before: where the end of a rule matches
nothing at the byte at which the rule was entered, no step follows; the scan returns the stack in which
the end was looked for with the scopes of the name of the top frame as its content scopes, which is the
same stack exactly if they are equal, as they are for a rule without a name for its content. Where the
start of a rule for more than one match matches nothing at the byte at which it has been entered already,
no step follows, and the scan returns the very stack from before. Either way the rest of the line gets
the content scopes of the stack that is returned. -/
theorem given_up_scans_keep_frames (tokenizer : Tokenizer) {engine : Engine}
    {themes : Theme → Prop} {state : Option Stack} (reached : tokenizer.Reached engine themes state)
    (theme : Theme) {store : Store} (text : String) (clock : Clock)
    {earlier later : List (Line.Head Line.Workspace)} {head : Line.Head Line.Workspace}
    (split : tokenizer.heads engine theme state text clock store = earlier ++ head :: later)
    (inTime : clock head.steps = false) {found : Line.Match}
    (answer : head.found (tokenizer.scanner engine theme) (Tokenizer.lineOf text) = some found)
    (stays : found.stop ≤ head.cursor.pos) :
    let before := head.cursor.stack
    let outcome := tokenizer.outcome engine theme state text clock store
    let scanned := (tokenizer.scanLine engine theme state text clock store).1
    let produced := head.produced (tokenizer.scanner engine theme)
      (tokenizer.rescan engine theme) (Tokenizer.lineOf text) found
    (found.target = .leave → before.top.enteredAt = some head.cursor.pos →
      later = [] ∧ outcome.stoppedEarly = false ∧
      outcome.stack =
        { before with top := { before.top with contentScopes := before.top.nameScopes } } ∧
      (outcome.stack = before ↔ before.top.contentScopes = before.top.nameScopes) ∧
      (Line.Unnamed tokenizer.grammar before.top.rule → outcome.stack = before) ∧
      Tokenizer.RestHas scanned produced outcome.stack.contentScopes.names) ∧
    ∀ id rule, found.target = .enter id →
      Line.spanning? (tokenizer.grammar.rule id) = some rule →
      before.hasEntered (Line.enteredStack (tokenizer.scanner engine theme) (Tokenizer.lineOf text)
        head.cursor found id rule).top = true →
      later = [] ∧ outcome.stoppedEarly = false ∧ outcome.stack = before ∧
      Tokenizer.RestHas scanned produced before.contentScopes.names := by
  intro before outcome scanned produced
  have course := Line.step_course (tokenizer.scanner engine theme)
    (tokenizer.rescan engine theme) (Tokenizer.lineOf text) head.cursor head.work
  rw [show ((tokenizer.scanner engine theme).finder.next (Tokenizer.lineOf text) head.cursor.pos
    head.cursor.flavour head.cursor.stack head.work.finder).1 = some found from answer] at course
  constructor
  · intro leaves here
    obtain ⟨after, taken⟩ := course.ends_leaving leaves stays here
    have gives : Line.GivesUp (Tokenizer.lineOf text) produced later before.closing outcome :=
      Line.gives_up split inTime answer taken
    have same : outcome.stack = before ↔ before.top.contentScopes = before.top.nameScopes := by
      rw [gives.returned]
      constructor
      · intro same
        exact (congrArg (·.top.contentScopes) same).symm
      · intro level
        rw [Stack.closing, ← level]
        rfl
    refine ⟨gives.last, gives.inTime, gives.returned, same, fun unnamed => ?_, ?_⟩
    · exact same.mpr (reached.level theme split _ List.mem_cons_self unnamed)
    · rw [gives.returned]
      exact Tokenizer.restHas_of_givesUp gives
  · intro id rule enters spans again
    obtain ⟨after, taken⟩ := course.ends_entering enters spans stays again
    have gives : Line.GivesUp (Tokenizer.lineOf text) produced later before outcome :=
      Line.gives_up split inTime answer taken
    exact ⟨gives.last, gives.inTime, gives.returned, Tokenizer.restHas_of_givesUp gives⟩

namespace Standstill

/-- A grammar with a region that starts and ends with nothing before a letter and has names for itself
and for its content. -/
def source : GrammarSource where
  scopeName := "source.x"
  patterns := [0]
  rules := #[{ beginPattern := some "(?=x)", endPattern := some "(?=x)", name := some "block"
               contentName := some "inside" }]

@[irreducible]
def compilation : Compilation :=
  (compile "source.x" ⟨[("source.x", source)]⟩ [] backtracking {}).1.toOption.get
    (by decide +kernel)

def tokenizer : Tokenizer := { serial := 0, rulesSerial := 1, grammar := compilation.grammar }

/-- The store of the grammar before the first line. -/
def store : Store := { patterns := compilation.patterns }

/-- Where the steps on the line `x` start. -/
def heads : List (Line.Head Line.Workspace) :=
  tokenizer.heads backtracking .plain none "x" (fun _ => false) store

/-- Where the step that finds the end starts. -/
def second : Line.Head Line.Workspace := heads.get ⟨1, by decide +kernel⟩

theorem heads_split : heads = heads.take 1 ++ second :: heads.drop 2 := by
  rw [second, List.get_eq_getElem, List.getElem_cons_drop, List.take_append_drop]

/-- The end is found where the region was entered. -/
theorem second_found : second.found (tokenizer.scanner backtracking .plain) (Tokenizer.lineOf "x") =
    some ⟨.leave, 0, 0, #[some ⟨0, 0⟩]⟩ ∧
      second.cursor.pos = 0 ∧ second.cursor.stack.top.enteredAt = some 0 := by
  decide +kernel

/-- The outcome of the scan of the line `x`. -/
def outcome : Line.Outcome Line.Workspace :=
  tokenizer.outcome backtracking .plain none "x" (fun _ => false) store

end Standstill

/-- The region is kept, and the letter gets the scopes of its name. -/
theorem given_up_scans_keep_frames_region :
    (Standstill.tokenizer.Reached backtracking (· = .plain) none ∧
      Standstill.second.found (Standstill.tokenizer.scanner backtracking .plain)
        (Tokenizer.lineOf "x") = some ⟨.leave, 0, 0, #[some ⟨0, 0⟩]⟩ ∧
      Standstill.second.cursor.pos = 0 ∧ Standstill.second.cursor.stack.top.enteredAt = some 0) ∧
    Standstill.heads.drop 2 = [] ∧ Standstill.outcome.stoppedEarly = false ∧
    Standstill.outcome.stack = Standstill.second.cursor.stack.closing ∧
    ∃ token ∈ (Standstill.tokenizer.scanLine backtracking .plain none "x" (fun _ => false)
        Standstill.store).1.tokens,
      token.start ≤ 0 ∧ 0 < token.stop ∧ token.scopes = ["source.x", "block"] := by
  obtain ⟨answer, pos, here⟩ := Standstill.second_found
  have reached : Standstill.tokenizer.Reached backtracking (· = .plain) none := .start
  obtain ⟨last, inTime, returned, -, -, rest⟩ := (given_up_scans_keep_frames Standstill.tokenizer
    reached .plain "x" (fun _ => false) Standstill.heads_split rfl answer (Nat.zero_le _)).1 rfl
    (by rw [here, pos])
  obtain ⟨token, among, first, stop, scopes⟩ := rest 0 (by decide +kernel) (by decide +kernel)
  refine ⟨⟨reached, answer, pos, here⟩, last, inTime, returned, token, among, first, stop,
    scopes.trans ?_⟩
  decide +kernel

/-- The stack in which the end was looked for has the scopes of the content, and the stack that is
returned has not. So the letter has them no more, nor has the line after it. -/
theorem given_up_frame_loses_content :
    let scan := fun state text =>
      (Standstill.tokenizer.scanLine backtracking .plain state text (fun _ => false)
        Standstill.store).1
    Standstill.second.found (Standstill.tokenizer.scanner backtracking .plain)
        (Tokenizer.lineOf "x") = some ⟨.leave, 0, 0, #[some ⟨0, 0⟩]⟩ ∧
      Standstill.second.cursor.pos = 0 ∧ Standstill.second.cursor.stack.top.enteredAt = some 0 ∧
      Standstill.second.cursor.stack.contentScopes.names = ["source.x", "block", "inside"] ∧
      Standstill.outcome.stack ≠ Standstill.second.cursor.stack ∧
      Standstill.outcome.stack.contentScopes.names = ["source.x", "block"] ∧
      (scan none "x").tokens = [⟨0, 1, ["source.x", "block"]⟩] ∧
      (scan (some (scan none "x").state) "y").tokens = [⟨0, 1, ["source.x", "block"]⟩] := by
  decide +kernel

end ScopeLexer

import ScopeLexer.Proofs.Coverage
import ScopeLexer.Proofs.ScanTermination

/-! How far the pieces of a line reach while it is scanned. A match is looked for from the
byte that the cursor has come to, so nothing should have been produced past that byte. What is
produced for a match ends where the match does, except for its groups: a group may lie in a
look-ahead. If no group that is handled reaches past the end of its match, the pieces never run
ahead of the cursor, from the check of conditions on and at every step of the scan. Groups that
are scanned again do not matter for this, as their scan ends with the group. -/
namespace ScopeLexer

open Grammar Pattern Regex

/-- The part of a line before a byte ends there. -/
theorem SourceLine.byteSize_upTo {line : SourceLine} (cut : line.Cut stop) (id : Nat) :
    (line.upTo stop id).byteSize = stop := by
  rw [SourceLine.byteSize_eq, SourceLine.toList_upTo, ← line.charToByte_eq,
    cut.charToByte_byteToChar]

namespace Line

theorem Pieces.reached_produce_le {pieces : Pieces} (reached : pieces.reached ≤ limit)
    (bound : stop ≤ limit) (scopes : ScopePath) : (pieces.produce scopes stop).reached ≤ limit := by
  unfold Pieces.produce
  split
  · exact reached
  · exact bound

section Groups

variable {σ : Type} (scanner : Scanner σ)

/-- The spans of the groups of a match that are handled: groups with rules that took some text,
up to the first that begins after the end of the match. -/
def handledSpans (captures : CaptureTable) (found : Match) : List Span :=
  ((List.range (min captures.size found.spans.size)).filterMap fun group =>
    (captureAt? scanner captures found.spans group).map Prod.snd).takeWhile
      fun span => span.start ≤ found.stop

/-- No group that is handled reaches past the end of the match. -/
def Contained (captures : CaptureTable) (found : Match) : Prop :=
  ∀ span ∈ handledSpans scanner captures found, span.stop ≤ found.stop

instance (captures : CaptureTable) (found : Match) : Decidable (Contained scanner captures found) :=
  inferInstanceAs (Decidable (∀ span ∈ handledSpans scanner captures found, span.stop ≤ found.stop))

end Groups

/-- A match that was looked for from a byte of a line. -/
structure Match.Lies (line : SourceLine) (pos : Nat) (found : Match) : Prop where
  start : pos ≤ found.start
  order : found.start ≤ found.stop
  whole : found.spans.whole = some ⟨found.start, found.stop⟩
  cuts : found.On line.Cut

section Scan

variable {engine : Engine} {grammar : CompiledGrammar} {line : SourceLine}

/-- What an entry finds lies on the line, at or after the place searched from. -/
theorem Entry.Finds.lies {entry : Entry} (inside : engine.StaysInside)
    (respects : engine.RespectsCuts) (fresh : entry.Fresh engine)
    (finds : entry.Finds line pos made) : made.Lies line pos := by
  have cuts := finds.on respects fresh
  obtain ⟨start, spans, _, here, searched, matched⟩ := finds
  obtain ⟨searcher, compiled, searched⟩ := Option.bind_eq_some_iff.mp searched
  obtain ⟨whole, same, _⟩ := Entry.start_of_toMatch matched
  obtain ⟨after, order, _⟩ :=
    inside searcher (fresh.made searcher compiled) line start spans _ searched whole
  refine ⟨?_, order, same ▸ whole, cuts⟩
  rcases here with rfl | ahead
  · exact after
  · exact ahead

theorem Workspace.Faithful.findNext_lies {workspace : Workspace} (inside : engine.StaysInside)
    (respects : engine.RespectsCuts) (faithful : workspace.Faithful engine grammar known count)
    (member : line ∈ known)
    (answer : (Line.findNext engine grammar line pos flavour stack workspace).1 = some found) :
    found.Lies line pos := by
  obtain ⟨key, _, entry, among, finds⟩ := faithful.findNext_sighted member answer
  exact finds.lies inside respects (rebuiltRuleSet_fresh engine grammar key entry among)

theorem Workspace.Faithful.findCondition_lies {workspace : Workspace} (inside : engine.StaysInside)
    (respects : engine.RespectsCuts) (faithful : workspace.Faithful engine grammar known count)
    (member : line ∈ known)
    (answer : (Line.findCondition engine grammar line pos flavour frame workspace).1 = some found) :
    found.Lies line pos := by
  obtain ⟨entry, among, finds⟩ := faithful.findCondition_finds member answer
  exact finds.lies inside respects (rebuiltConditionSet_fresh engine grammar _ entry among)

/-- Scans of parts of a line that end before a limit, with pieces that do not reach past it. -/
structure Work.Limited (engine : Engine) (grammar : CompiledGrammar) (whole : SourceLine)
    (limit : Nat) (known : List SourceLine) (left right : Work Workspace) : Prop where
  tiling : Work.Tiling engine grammar whole known left right
  short : ∀ line ∈ known, line.byteSize ≤ limit
  reached : left.pieces.reached ≤ limit

/-- A scan of a part of a line never produces anything past its end. -/
def limitedScans (respects : engine.RespectsCuts) (grammar : CompiledGrammar) (styling : Styling)
    (whole : SourceLine) (limit : Nat) : Simulation Workspace Workspace :=
  let tilings := tilingScans respects grammar styling whole
  { tilings with
    Related := Work.Limited engine grammar whole limit
    sameCount := fun limited => tilings.sameCount limited.tiling
    next := fun pos flavour limited member alike sound => by
      obtain ⟨same, asked, on⟩ := tilings.next pos flavour limited.tiling member alike sound
      exact ⟨same, ⟨asked, limited.short, limited.reached⟩, on⟩
    condition := fun pos flavour limited member alike sound => by
      obtain ⟨same, asked, on⟩ := tilings.condition pos flavour limited.tiling member alike sound
      exact ⟨same, ⟨asked, limited.short, limited.reached⟩, on⟩
    warn := fun warning limited =>
      ⟨tilings.warn warning limited.tiling, limited.short, limited.reached⟩
    produce := fun {known a b line stop} scopes limited member cut => by
      have cut : line.Cut stop := cut
      exact ⟨tilings.produce scopes limited.tiling member cut, limited.short,
        Pieces.reached_produce_le limited.reached
          (Nat.le_trans cut.le_byteSize (limited.short line member)) scopes⟩
    divide := fun {known a b line stop} limited member cut => by
      refine ⟨tilings.divide limited.tiling member cut, fun part among => ?_, limited.reached⟩
      have cut : line.Cut stop := cut
      rcases List.mem_cons.mp among with rfl | outside
      · rw [SourceLine.byteSize_upTo cut]
        exact Nat.le_trans cut.le_byteSize (limited.short line member)
      · exact limited.short part outside
    forget := fun limited =>
      ⟨tilings.forget limited.tiling, fun line inside =>
        limited.short line (List.mem_cons_of_mem _ inside), limited.reached⟩ }

theorem limitedScans_exhausts (respects : engine.RespectsCuts) (grammar : CompiledGrammar)
    (styling : Styling) (whole : SourceLine) (limit : Nat) :
    (limitedScans respects grammar styling whole limit).Exhausts := by
  intro known a b limited
  have limited : Work.Limited engine grammar whole limit known a b := limited
  exact Work.Limited.mk (tilingScans_exhausts respects grammar styling whole limited.tiling)
    limited.short limited.reached

/-- The work while the groups of a match are handled: neither what has been produced nor a group
that has begun reaches past a limit. -/
structure Work.Reaches (engine : Engine) (grammar : CompiledGrammar) (line : SourceLine)
    (limit : Nat) (groups : List OpenGroup) (work : Work Workspace) : Prop where
  tiling : Work.Tiling engine grammar line [line] work work
  reached : work.pieces.reached ≤ limit
  cuts : ∀ group ∈ groups, line.Cut group.stop
  groups : ∀ group ∈ groups, group.stop ≤ limit

theorem closeGroups_reached {groups : List OpenGroup} (bound : ∀ group ∈ groups, group.stop ≤ limit)
    {pieces : Pieces} (reached : pieces.reached ≤ limit) (start : Nat) :
    (closeGroups start groups pieces).2.reached ≤ limit := by
  induction groups generalizing pieces with
  | nil => exact reached
  | cons group outer ih =>
    rw [closeGroups]
    split
    · exact ih (fun inner among => bound inner (List.mem_cons_of_mem _ among))
        (Pieces.reached_produce_le reached (bound group List.mem_cons_self) group.scopes)
    · exact reached

theorem closeAllGroups_reached {groups : List OpenGroup}
    (bound : ∀ group ∈ groups, group.stop ≤ limit) {pieces : Pieces}
    (reached : pieces.reached ≤ limit) : (closeAllGroups groups pieces).reached ≤ limit := by
  induction groups generalizing pieces with
  | nil => exact reached
  | cons group outer ih =>
    exact ih (fun inner among => bound inner (List.mem_cons_of_mem _ among))
      (Pieces.reached_produce_le reached (bound group List.mem_cons_self) group.scopes)

variable (respects : engine.RespectsCuts) (styling : Styling) (depth : Nat)
include respects

theorem tilings_follow (line : SourceLine) (grammar : CompiledGrammar) :
    (tilingScans respects grammar styling line).Follows
      (rescanGroup (remembering engine grammar styling) depth)
      (rescanGroup (remembering engine grammar styling) depth) :=
  (tilingScans respects grammar styling line).follows_rescanGroup
    (tilingScans_exhausts respects grammar styling line) depth

/-- Scanning a group again produces nothing past its end. -/
theorem Work.Tiling.rescan_reached {work : Work Workspace}
    (tiling : Work.Tiling engine grammar line [line] work work)
    (reached : work.pieces.reached ≤ limit) (cut : line.Cut stop) (bound : stop ≤ limit)
    (retokenizes : grammar.Retokenizes stack.top.rule) (isFirst : Bool) (start : Nat) :
    (rescanGroup (remembering engine grammar styling) depth (line.upTo stop work.lineCount) isFirst
      start stack { work with lineCount := work.lineCount + 1 }).pieces.reached ≤ limit := by
  let part := line.upTo stop work.lineCount
  have divided := (tilingScans respects grammar styling line).divide tiling
    (List.mem_singleton_self line) cut
  have among (inner : SourceLine) (member : inner ∈ [part]) : inner ∈ [part, line] :=
    List.mem_cons.mpr (.inl (List.mem_singleton.mp member))
  -- The line itself may be longer than the limit, so only its part is kept in sight.
  have limited : Work.Limited engine grammar line limit [part]
      { work with lineCount := work.lineCount + 1 }
      { work with lineCount := work.lineCount + 1 } := by
    refine ⟨⟨rfl, divided.faithful.subset among, fun inner member => ?_, divided.tiled⟩,
      fun inner member => ?_, reached⟩
    · exact divided.parts inner (among inner member)
    · rw [List.mem_singleton.mp member, SourceLine.byteSize_upTo cut]
      exact bound
  have follows := (limitedScans respects grammar styling line limit).follows_rescanGroup
    (limitedScans_exhausts respects grammar styling line limit) depth
  exact (follows.related isFirst start retokenizes limited (List.mem_singleton_self _) (.refl stack)
    trivial).reached

/-- Beginning a group at places between characters keeps all pieces and open groups so. -/
theorem Work.Reaches.beginGroup {groups : List OpenGroup} {work : Work Workspace} {id : RuleId}
    (reaches : Work.Reaches engine grammar line limit groups work) (startCut : line.Cut span.start)
    (stopCut : line.Cut span.stop) (starts : span.start ≤ limit) (stops : span.stop ≤ limit)
    (held : grammar.rule id = .capture rule) (isFirst : Bool) (stack : Stack) (spans : Spans) :
    let begun := beginGroup (remembering engine grammar styling)
      (rescanGroup (remembering engine grammar styling) depth) line isFirst stack spans rule span
      groups work
    Work.Reaches engine grammar line limit begun.1 begun.2 := by
  intro begun
  let tilings := tilingScans respects grammar styling line
  obtain ⟨_, cuts, tiling⟩ := Simulation.beginGroup_related
    (tilings_follow respects styling depth line grammar) reaches.tiling (List.mem_singleton_self line)
    (.refl stack) reaches.cuts startCut stopCut held isFirst spans trivial
  suffices bounds : begun.2.pieces.reached ≤ limit ∧ ∀ group ∈ begun.1, group.stop ≤ limit from
    ⟨tiling, bounds.1, cuts, bounds.2⟩
  have closed := closeGroups_reached reaches.groups reaches.reached span.start
  have produced := Pieces.reached_produce_le closed starts
    (innermostScopes stack (groups.dropWhile (·.stop ≤ span.start)))
  have left (group : OpenGroup) (among : group ∈ groups.dropWhile (·.stop ≤ span.start)) :
      group.stop ≤ limit := reaches.groups group ((List.dropWhile_sublist _).subset among)
  have before := tilings.produce (innermostScopes stack (groups.dropWhile (·.stop ≤ span.start)))
    (Simulation.closeGroups_related reaches.tiling (List.mem_singleton_self line) reaches.cuts
      span.start) (List.mem_singleton_self line) startCut
  unfold begun Line.beginGroup
  simp only [Simulation.closeGroups_fst]
  cases again : rule.retokenize with
  | some retokenize =>
    exact ⟨before.rescan_reached respects styling depth produced stopCut stops
      ⟨id, rule, held, again⟩ _ _, left⟩
  | none =>
    cases resolvedName rule.name line spans with
    | none => exact ⟨produced, left⟩
    | some name =>
      refine ⟨produced, fun group among => ?_⟩
      rcases List.mem_cons.mp among with rfl | among
      · exact stops
      · exact left group among

/-- Walking through groups contained in the match keeps all pieces and open groups so. -/
theorem Work.Reaches.walkGroups {groups : List OpenGroup} {work : Work Workspace}
    (reaches : Work.Reaches engine grammar line limit groups work) (numbers : List Nat)
    {spans : Spans} (cuts : ∀ group span, spans.group group = some span →
      line.Cut span.start ∧ line.Cut span.stop)
    (contained : ∀ span ∈ (numbers.filterMap fun group =>
      (captureAt? (remembering engine grammar styling) captures spans group).map
        Prod.snd).takeWhile fun span => span.start ≤ limit, span.stop ≤ limit)
    (isFirst : Bool) (stack : Stack) :
    let walked := walkGroups (remembering engine grammar styling)
      (rescanGroup (remembering engine grammar styling) depth) line isFirst stack captures spans limit
      numbers groups work
    Work.Reaches engine grammar line limit walked.1 walked.2 := by
  induction numbers generalizing groups work with
  | nil => exact reaches
  | cons number numbers ih =>
    rw [Line.walkGroups]
    cases captured : captureAt? (remembering engine grammar styling) captures spans number with
    | none =>
      refine ih reaches ?_
      rwa [List.filterMap_cons_none (by rw [captured]; rfl)] at contained
    | some capture =>
      obtain ⟨rule, span⟩ := capture
      simp only
      split
      · exact reaches
      next begins =>
        obtain ⟨⟨id, held⟩, spanned⟩ := Simulation.captureAt_some captured
        obtain ⟨startCut, stopCut⟩ := cuts number span spanned
        -- A group that begins in time is the first that is handled, and the others come after it.
        rw [List.filterMap_cons_some (by rw [captured]; rfl), List.takeWhile_cons_of_pos
          (by simpa using begins), List.forall_mem_cons] at contained
        exact ih (reaches.beginGroup respects styling depth startCut stopCut (by omega) contained.1
          held isFirst stack spans) contained.2

/-- What is produced for the groups of a match that contains them ends where the match does. -/
theorem produceCaptures_reached {work : Work Workspace} {found : Match}
    (tiling : Work.Tiling engine grammar line [line] work work) (lies : found.Lies line pos)
    (reached : work.pieces.reached ≤ found.stop)
    (contained : Contained (remembering engine grammar styling) captures found) (isFirst : Bool)
    (stack : Stack) :
    (produceCaptures (remembering engine grammar styling)
      (rescanGroup (remembering engine grammar styling) depth) line isFirst stack captures found.spans
      work).pieces.reached ≤ found.stop := by
  have reaches : Work.Reaches engine grammar line found.stop [] work :=
    ⟨tiling, reached, by simp, by simp⟩
  have walked := reaches.walkGroups respects styling depth
    (List.range (min captures.size found.spans.size)) lies.cuts.groups contained isFirst
    stack
  unfold produceCaptures
  simp only [lies.whole]
  exact closeAllGroups_reached walked.groups walked.reached

/-- What is produced for a match that contains its groups ends where the match does. -/
theorem produced_reached {work : Work Workspace} {found : Match}
    (tiling : Work.Tiling engine grammar line [line] work work) (lies : found.Lies line pos)
    (reached : work.pieces.reached ≤ pos)
    (contained : Contained (remembering engine grammar styling) captures found) (isFirst : Bool)
    (outer stack : Stack) :
    ((produceCaptures (remembering engine grammar styling)
      (rescanGroup (remembering engine grammar styling) depth) line isFirst stack captures found.spans
      (work.produceTop outer found.start)).produceTop stack found.stop).pieces.reached ≤
        found.stop := by
  have behind : work.pieces.reached ≤ found.stop :=
    Nat.le_trans reached (Nat.le_trans lies.start lies.order)
  have started := (tilingScans respects grammar styling line).produce outer.contentScopes tiling
    (List.mem_singleton_self line) lies.cuts.start
  exact Pieces.reached_produce_le (produceCaptures_reached respects styling depth started lies
    (Pieces.reached_produce_le behind lies.order _) contained isFirst stack) (Nat.le_refl _) _

end Scan

section Steps

variable {σ : Type} (scanner : Scanner σ) (rescan : Rescan σ) (line : SourceLine)

/-- The rules for the groups of a match. -/
def groupRules (grammar : CompiledGrammar) (stack : Stack) (found : Match) : CaptureTable :=
  match found.target with
  | .leave => stopCapturesOf (grammar.rule stack.top.rule)
  | .enter id =>
    ((spanning? (grammar.rule id)).map Spanning.startCaptures).getD (capturesOf (grammar.rule id))

/-- The stack in which a match is handled. -/
def handlingStack (cursor : Cursor) (found : Match) : Stack :=
  match found.target with
  | .leave => cursor.stack.closing
  | .enter id =>
    cursor.stack.push id (some cursor.pos) cursor.anchor (found.stop = line.byteSize)
      (cursor.stack.contentScopes.push scanner.styling
        (resolvedName (scanner.grammar.rule id).name line found.spans))

/-- The work once a match has been handled. -/
def handled (cursor : Cursor) (found : Match) (work : Work σ) : Work σ :=
  (produceCaptures scanner rescan line cursor.isFirst (handlingStack scanner line cursor found)
    (groupRules scanner.grammar cursor.stack found) found.spans
    (work.produceTop cursor.stack found.start)).produceTop (handlingStack scanner line cursor found)
    found.stop

variable {scanner rescan line} {cursor next : Cursor} {work after : Work σ}

theorem leaveRule_next (leaves : found.target = .leave)
    (taken : leaveRule scanner rescan line cursor found work = .next next after) :
    next.pos = max cursor.pos found.stop ∧
      after.pieces = (handled scanner rescan line cursor found work).pieces := by
  unfold leaveRule at taken
  simp only at taken
  split at taken
  · cases taken
  · cases taken
    refine ⟨Cursor.pos_advance .., ?_⟩
    simp only [handled, handlingStack, groupRules, leaves]
    rfl

theorem pieces_resolveEnding (scanner : Scanner σ) (pattern : PatternId) (hasReferences : Bool)
    (line : SourceLine) (spans : Spans) (stack : Stack) (work : Work σ) :
    (resolveEnding scanner pattern hasReferences line spans stack work).2.pieces = work.pieces := by
  unfold resolveEnding
  split <;> rfl

/-- Where entering a rule goes on, the cursor is past the match and no further piece was made. -/
theorem enterRule_next {id : RuleId} (enters : found.target = .enter id)
    (taken : enterRule scanner rescan line cursor found id work = .next next after) :
    next.pos = max cursor.pos found.stop ∧
      after.pieces = (handled scanner rescan line cursor found work).pieces := by
  unfold enterRule at taken
  simp only at taken
  cases spans : spanning? (scanner.grammar.rule id) with
  | some rule =>
    simp only [spans, enterSpanning] at taken
    split at taken
    · cases taken
    · cases taken
      refine ⟨Cursor.pos_advance .., ?_⟩
      rw [pieces_resolveEnding]
      simp only [handled, handlingStack, groupRules, enters, spans, Option.map_some,
        Option.getD_some]
  | none =>
    simp only [spans, matchSingle] at taken
    split at taken
    · cases taken
    · cases taken
      refine ⟨Cursor.pos_advance .., ?_⟩
      simp only [handled, handlingStack, groupRules, enters, spans, Option.map_none,
        Option.getD_none]

/-- A step that goes on has handled a match, and goes on after it. -/
theorem step_next (taken : step scanner rescan line cursor work = .next next after) :
    let answer := scanner.finder.next line cursor.pos cursor.flavour cursor.stack work.finder
    ∃ found, answer.1 = some found ∧ next.pos = max cursor.pos found.stop ∧
      after.pieces =
        (handled scanner rescan line cursor found { work with finder := answer.2 }).pieces := by
  intro answer
  unfold step at taken
  simp only at taken
  split at taken
  · cases taken
  next found answered =>
    refine ⟨found, answered, ?_⟩
    split at taken
    next leaves => exact leaveRule_next leaves taken
    next enters => exact enterRule_next enters taken

/-- Where a step of a scan starts, with the number of steps left after it. -/
structure Head (σ : Type) where
  steps : Nat
  cursor : Cursor
  work : Work σ

variable (scanner rescan line) in
/-- Where the steps of a scan start, one after the other. If the time is over, the last of them is
not taken. -/
def heads (expired : Nat → Bool) : Nat → Cursor → Work σ → List (Head σ)
  | 0, _, _ => []
  | steps + 1, cursor, work =>
    ⟨steps, cursor, work⟩ ::
      if expired steps then []
      else
        match step scanner rescan line cursor work with
        | .done _ _ => []
        | .next cursor work => heads expired steps cursor work

variable (scanner line) in
/-- What the step finds. -/
def Head.found (head : Head σ) : Option Match :=
  (scanner.finder.next line head.cursor.pos head.cursor.flavour head.cursor.stack
    head.work.finder).1

/-- What every step that goes on keeps holds at every head, if it holds at the first. The scan goes
on from every head. -/
theorem of_heads {Good : Cursor → Work σ → Prop} {expired : Nat → Bool} {steps : Nat}
    {earlier later : List (Head σ)} {head : Head σ}
    (split : heads scanner rescan line expired steps cursor work = earlier ++ head :: later)
    (good : Good cursor work)
    (keeps : ∀ before ∈ earlier, Good before.cursor before.work → ∀ next after,
      step scanner rescan line before.cursor before.work = .next next after → Good next after) :
    Good head.cursor head.work ∧
      scanFrom scanner rescan expired line steps cursor work =
        scanFrom scanner rescan expired line (head.steps + 1) head.cursor head.work := by
  -- By induction on the heads before: each is the first of a shorter run, from where its step leads.
  induction earlier generalizing steps cursor work with
  | nil =>
    cases steps with
    | zero => cases split
    | succ steps =>
      obtain ⟨rfl, _⟩ := List.cons.inj split
      exact ⟨good, rfl⟩
  | cons first earlier ih =>
    cases steps with
    | zero => cases split
    | succ steps =>
      obtain ⟨rfl, rest⟩ := List.cons.inj split
      split at rest
      · simp at rest
      next inTime =>
        cases taken : step scanner rescan line cursor work with
        | done stack final => simp [taken] at rest
        | next next after =>
          rw [taken] at rest
          have kept := keeps _ List.mem_cons_self good next after taken
          obtain ⟨atHead, goesOn⟩ := ih rest kept fun before among =>
            keeps before (List.mem_cons_of_mem _ among)
          refine ⟨atHead, ?_⟩
          rw [scanFrom, if_neg inTime, taken]
          exact goesOn

variable (scanner rescan line) in
/-- The matches of conditions, with the rules for their groups, as far as conditions are checked. -/
def conditionMatches : List (Stack × BlockRule) → Cursor → Work σ → List (CaptureTable × Match)
  | [], _, _ => []
  | (stack, rule) :: inner, cursor, work =>
    ((scanner.finder.condition line cursor.pos cursor.flavour stack.top work.finder).1.map fun found =>
      (rule.conditionCaptures, found)).toList ++
        match checkCondition scanner rescan line cursor stack rule work with
        | (none, _) => []
        | (some cursor, work) => conditionMatches inner cursor work

end Steps

section Behind

variable {engine : Engine} {grammar : CompiledGrammar} {line : SourceLine} {cursor next : Cursor}
  {work after : Work Workspace}

/-- Nothing has been produced past the byte that the cursor has come to. -/
structure Behind (engine : Engine) (grammar : CompiledGrammar) (line : SourceLine) (cursor : Cursor)
    (work : Work Workspace) : Prop where
  tiling : Work.Tiling engine grammar line [line] work work
  reached : work.pieces.reached ≤ cursor.pos

variable (inside : engine.StaysInside) (respects : engine.RespectsCuts) (styling : Styling)
  (depth : Nat)
include inside respects

/-- A step whose match contains its groups leaves all that is produced behind the cursor. -/
theorem Behind.step (behind : Behind engine grammar line cursor work)
    (contained : ∀ found, (findNext engine grammar line cursor.pos cursor.flavour cursor.stack
        work.finder).1 = some found →
      Contained (remembering engine grammar styling) (groupRules grammar cursor.stack found) found)
    (taken : step (remembering engine grammar styling)
      (rescanGroup (remembering engine grammar styling) depth) line cursor work = .next next after) :
    Behind engine grammar line next after := by
  have member := List.mem_singleton_self line
  let scanner := remembering engine grammar styling
  have tiling : Work.Tiling engine grammar line [line]
      (Line.step scanner (rescanGroup scanner depth) line cursor work).work
      (Line.step scanner (rescanGroup scanner depth) line cursor work).work :=
    (Simulation.step_agree (tilings_follow respects styling depth line grammar) behind.tiling member
      (.refl cursor.stack) trivial).work
  rw [taken] at tiling
  obtain ⟨found, answer, pos, pieces⟩ := step_next taken
  have lies := behind.tiling.faithful.findNext_lies inside respects member answer
  have asked : Work.Tiling engine grammar line [line]
      { work with finder := (findNext engine grammar line cursor.pos cursor.flavour cursor.stack
        work.finder).2 } _ :=
    ((tilingScans respects grammar styling line).next cursor.pos cursor.flavour behind.tiling member
      (.refl cursor.stack) trivial).2.1
  have ends := produced_reached respects styling depth asked lies behind.reached
    (contained found answer) cursor.isFirst cursor.stack
    (handlingStack (remembering engine grammar styling) line cursor found)
  refine ⟨tiling, ?_⟩
  rw [pieces, pos]
  exact Nat.le_trans ends (Nat.le_max_right _ _)

/-- So does a condition that holds, and one that does not changes nothing. -/
theorem Behind.checkCondition (behind : Behind engine grammar line cursor work) (stack : Stack)
    (rule : BlockRule)
    (contained : ∀ found, (findCondition engine grammar line cursor.pos cursor.flavour stack.top
        work.finder).1 = some found →
      Contained (remembering engine grammar styling) rule.conditionCaptures found) :
    let checked := checkCondition (remembering engine grammar styling)
      (rescanGroup (remembering engine grammar styling) depth) line cursor stack rule work
    Behind engine grammar line (checked.1.getD cursor) checked.2 := by
  intro checked
  have member := List.mem_singleton_self line
  have tiling : Work.Tiling engine grammar line [line] checked.2 checked.2 :=
    (Simulation.checkCondition_related cursor (tilings_follow respects styling depth line grammar)
      behind.tiling member (.refl stack) cursor.stack rule trivial).2
  refine ⟨tiling, ?_⟩
  have asked : Work.Tiling engine grammar line [line]
      { work with finder := (findCondition engine grammar line cursor.pos cursor.flavour stack.top
        work.finder).2 } _ :=
    ((tilingScans respects grammar styling line).condition cursor.pos cursor.flavour behind.tiling
      member rfl trivial).2.1
  unfold checked Line.checkCondition
  simp only
  split
  · exact behind.reached
  next found answer =>
    have lies := behind.tiling.faithful.findCondition_lies inside respects member answer
    have ends := produced_reached respects styling depth asked lies behind.reached
      (contained found answer) cursor.isFirst stack stack
    rw [Option.getD_some, Cursor.pos_advance]
    exact Nat.le_trans ends (Nat.le_max_right _ _)

/-- The check of conditions leaves all that is produced behind the cursor, if every match contains
its groups. -/
theorem Behind.checkAll (behind : Behind engine grammar line cursor work)
    (blocks : List (Stack × BlockRule))
    (contained : ∀ made ∈ conditionMatches (remembering engine grammar styling)
        (rescanGroup (remembering engine grammar styling) depth) line blocks cursor work,
      Contained (remembering engine grammar styling) made.1 made.2) :
    let checked := checkAll (remembering engine grammar styling)
      (rescanGroup (remembering engine grammar styling) depth) line blocks cursor work
    Behind engine grammar line checked.1 checked.2 := by
  induction blocks generalizing cursor work with
  | nil => exact behind
  | cons block blocks ih =>
    obtain ⟨stack, rule⟩ := block
    rw [conditionMatches] at contained
    have first := behind.checkCondition inside respects styling depth stack rule fun found answer =>
      contained (rule.conditionCaptures, found) (List.mem_append_left _ (by
        rw [show (remembering engine grammar styling).finder.condition = findCondition engine grammar
          from rfl, answer]
        exact List.mem_singleton_self _))
    rw [Line.checkAll]
    generalize Line.checkCondition (remembering engine grammar styling)
      (rescanGroup (remembering engine grammar styling) depth) line cursor stack rule work = result
      at first contained ⊢
    obtain ⟨_ | next, left⟩ := result
    · exact ⟨first.tiling, first.reached⟩
    · exact ih first fun made among => contained made (List.mem_append_right _ among)

end Behind
end Line
end ScopeLexer

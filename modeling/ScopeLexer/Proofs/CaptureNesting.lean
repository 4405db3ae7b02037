import ScopeLexer.Proofs.PackedAgreement
import ScopeLexer.Proofs.ScopeAdditivity

/-! The groups of a match give their scopes to the text that they took. Groups are handled in one
sweep from left to right, with those that have begun and not ended kept in a list. If every group
lies inside each earlier one or after it, a byte of the match gets the scopes around the match, and
then those of exactly the groups that took it, in their order. The sweep is followed through its
list: at every byte that is still to come, the first group of the list that has not ended there
holds the scopes of all groups begun so far that took the byte. -/
namespace ScopeLexer

open Grammar Pattern Regex

namespace Regex.Span

/-- A byte lies in the span. -/
def Holds (span : Span) (byte : Nat) : Prop := span.start ≤ byte ∧ byte < span.stop

instance (span : Span) (byte : Nat) : Decidable (span.Holds byte) :=
  inferInstanceAs (Decidable (_ ∧ _))

/-- The span lies inside another. -/
structure Inside (span outer : Span) : Prop where
  start : outer.start ≤ span.start
  order : span.start ≤ span.stop
  stop : span.stop ≤ outer.stop

instance (span outer : Span) : Decidable (span.Inside outer) :=
  decidable_of_iff (outer.start ≤ span.start ∧ span.start ≤ span.stop ∧ span.stop ≤ outer.stop)
    ⟨fun ⟨start, order, stop⟩ => ⟨start, order, stop⟩,
      fun ⟨start, order, stop⟩ => ⟨start, order, stop⟩⟩

/-- The span lies inside an earlier one or after it. -/
def Nests (earlier span : Span) : Prop := span.Inside earlier ∨ earlier.stop ≤ span.start

instance (earlier span : Span) : Decidable (earlier.Nests span) :=
  inferInstanceAs (Decidable (_ ∨ _))

end Regex.Span

namespace Line

section Sweep

variable {σ : Type} (scanner : Scanner σ) (line : SourceLine) (spans : Spans)

/-- The groups of a match that have a rule and took some text, in their order. -/
def takenGroups (captures : CaptureTable) : List (CaptureRule × Span) :=
  (List.range (min captures.size spans.size)).filterMap (captureAt? scanner captures spans)

/-- The scopes that a rule for a group gives. -/
def groupScopes (rule : CaptureRule) : List String :=
  match resolvedName rule.name line spans with
  | none => []
  | some name => (Scope.splitPath name).map Scope.text

/-- The scopes that groups give to a byte: those of each group that took it. -/
def scopesFrom (groups : List (CaptureRule × Span)) (byte : Nat) : List String :=
  (groups.filter fun group => group.2.Holds byte).flatMap fun group => groupScopes line spans group.1

theorem scopesFrom_append (front back : List (CaptureRule × Span)) (byte : Nat) :
    scopesFrom line spans (front ++ back) byte =
      scopesFrom line spans front byte ++ scopesFrom line spans back byte := by
  rw [scopesFrom, List.filter_append, List.flatMap_append]
  rfl

theorem scopesFrom_singleton (rule : CaptureRule) (span : Span) (byte : Nat) :
    scopesFrom line spans [(rule, span)] byte =
      if span.Holds byte then groupScopes line spans rule else [] := by
  by_cases holds : span.Holds byte <;> simp [scopesFrom, holds]

/-- Groups that begin later give nothing to a byte. -/
theorem scopesFrom_later {groups : List (CaptureRule × Span)}
    (later : ∀ group ∈ groups, byte < group.2.start) : scopesFrom line spans groups byte = [] := by
  have none : groups.filter (fun group => decide (group.2.Holds byte)) = [] := by
    rw [List.filter_eq_nil_iff]
    intro group member holds
    have begins := later group member
    have holds := (of_decide_eq_true holds).1
    omega
  rw [scopesFrom, none, List.flatMap_nil]

end Sweep

section Paint

/-- Every byte from one on, as far as pieces have been produced, is in a piece with the scopes
wanted for it. -/
def Pieces.Paints (wanted : Nat → List String) (first : Nat) (pieces : Pieces) : Prop :=
  ∀ byte, first ≤ byte → byte < pieces.reached →
    ∃ piece ∈ pieces.items.toList, piece.start ≤ byte ∧ byte < piece.stop ∧
      piece.scopes.names = wanted byte

variable {wanted : Nat → List String} {first start : Nat} {pieces : Pieces}

theorem Pieces.reached_produce (pieces : Pieces) (scopes : ScopePath) (stop : Nat) :
    (pieces.produce scopes stop).reached = max pieces.reached stop := by
  unfold Pieces.produce
  split
  · omega
  · simp only
    omega

/-- A piece with the wanted scopes keeps the pieces painted as wanted. -/
theorem Pieces.Paints.produce (paints : pieces.Paints wanted first) {scopes : ScopePath}
    (same : ∀ byte, pieces.reached ≤ byte → byte < stop → scopes.names = wanted byte) :
    (pieces.produce scopes stop).Paints wanted first := by
  unfold Pieces.produce
  split
  · exact paints
  next ahead =>
    intro byte starts bound
    simp only [Array.toList_push]
    by_cases old : byte < pieces.reached
    · obtain ⟨piece, member, covers⟩ := paints byte starts old
      exact ⟨piece, List.mem_append_left _ member, covers⟩
    · exact ⟨_, List.mem_append_right _ (List.mem_singleton_self _), by simpa using old, bound,
        same byte (by omega) bound⟩

/-- The scopes of a byte that is still to come: those of the innermost open group that has not ended
there. -/
def scopesAhead (stack : Stack) (groups : List OpenGroup) (byte : Nat) : ScopePath :=
  innermostScopes stack (groups.dropWhile (·.stop ≤ byte))

theorem scopesAhead_ended {group : OpenGroup} (ended : group.stop ≤ byte) (stack : Stack)
    (outer : List OpenGroup) :
    scopesAhead stack (group :: outer) byte = scopesAhead stack outer byte := by
  rw [scopesAhead, List.dropWhile_cons_of_pos (by simpa using ended)]
  rfl

theorem scopesAhead_open {group : OpenGroup} (goesOn : byte < group.stop) (stack : Stack)
    (outer : List OpenGroup) : scopesAhead stack (group :: outer) byte = group.scopes := by
  rw [scopesAhead, List.dropWhile_cons_of_neg (by simpa using goesOn)]
  rfl

/-- Before the end of the innermost group its scopes count. -/
theorem scopesAhead_within {groups : List OpenGroup}
    (goesOn : ∀ group, groups.head? = some group → byte < group.stop) (stack : Stack) :
    scopesAhead stack groups byte = innermostScopes stack groups := by
  cases groups with
  | nil => rfl
  | cons group outer => exact scopesAhead_open (goesOn group rfl) stack outer

/-- Ending groups up to a byte gives the text the scopes that were ahead, and leaves ahead what was
ahead. -/
theorem closeGroups_paints {stack : Stack} {groups : List OpenGroup} {held : Nat → List String}
    (start : Nat) (paints : pieces.Paints wanted first)
    (ahead : ∀ byte, pieces.reached ≤ byte → (scopesAhead stack groups byte).names = held byte)
    (settled : ∀ byte < start, held byte = wanted byte) :
    let closed := closeGroups start groups pieces
    closed.2.Paints wanted first ∧ closed.2.reached ≤ max pieces.reached start ∧
      ∀ byte, closed.2.reached ≤ byte → (scopesAhead stack closed.1 byte).names = held byte := by
  induction groups generalizing pieces with
  | nil => exact ⟨paints, Nat.le_max_left _ _, ahead⟩
  | cons group outer ih =>
    rw [closeGroups]
    split
    next ends =>
      have reached := pieces.reached_produce group.scopes group.stop
      have produced : (pieces.produce group.scopes group.stop).Paints wanted first := by
        apply paints.produce
        intro byte starts bound
        rw [← settled byte (by omega), ← ahead byte starts, scopesAhead_open bound]
      obtain ⟨paints, behind, ahead⟩ := ih produced fun byte starts => by
        rw [← ahead byte (by omega), scopesAhead_ended (by omega)]
      exact ⟨paints, by omega, ahead⟩
    next => exact ⟨paints, Nat.le_max_left _ _, ahead⟩

/-- If all groups end by a byte, ending all of them is ending those that end by it. -/
theorem closeAllGroups_eq {groups : List OpenGroup} (end' : ∀ group ∈ groups, group.stop ≤ stop)
    (pieces : Pieces) : closeGroups stop groups pieces = ([], closeAllGroups groups pieces) := by
  induction groups generalizing pieces with
  | nil => rfl
  | cons group outer ih =>
    rw [closeGroups, if_pos (end' group List.mem_cons_self)]
    exact ih (fun other member => end' other (List.mem_cons_of_mem _ member)) _

end Paint

section Sweep

variable {σ : Type} {scanner : Scanner σ} {line : SourceLine} {spans : Spans} {stack : Stack}
  {first : Nat}

/-- How far a sweep over groups has come: some have been handled and others are left. -/
structure Swept (line : SourceLine) (spans : Spans) (stack : Stack) (first : Nat)
    (handled left : List (CaptureRule × Span)) (groups : List OpenGroup) (pieces : Pieces) :
    Prop where
  /-- What has been produced is final: the groups that are left take none of it. -/
  paints : pieces.Paints (fun byte => stack.contentScopes.names ++
    scopesFrom line spans (handled ++ left) byte) first
  /-- The open groups hold what the groups handled give to the bytes still to come. -/
  ahead : ∀ byte, pieces.reached ≤ byte → (scopesAhead stack groups byte).names =
    stack.contentScopes.names ++ scopesFrom line spans handled byte
  ends : ∀ group ∈ groups, ∃ other ∈ handled, other.2.stop = group.stop
  begins : ∀ group ∈ left, pieces.reached ≤ group.2.start

/-- Before the first group begins, all bytes to come have the scopes around the match. -/
theorem Swept.start {pieces : Pieces} (reached : pieces.reached = first)
    (begins : ∀ group ∈ left, first ≤ group.2.start) :
    Swept line spans stack first [] left [] pieces where
  paints byte starts bound := by omega
  ahead byte _ := (List.append_nil _).symm
  ends group absurd := by cases absurd
  begins := by rwa [reached]

variable {handled left : List (CaptureRule × Span)} {groups : List OpenGroup} {rule : CaptureRule}
  {span : Span}

/-- The groups that are still open where another begins enclose it. -/
theorem Swept.encloses {pieces : Pieces}
    (swept : Swept line spans stack first handled left groups pieces)
    (nests : ∀ group ∈ handled, group.2.Nests span) {group : OpenGroup} (among : group ∈ groups)
    (goesOn : span.start < group.stop) : span.stop ≤ group.stop := by
  obtain ⟨other, member, same⟩ := swept.ends group among
  rcases nests other member with inside | after
  · exact same ▸ inside.stop
  · omega

/-- One group is begun: the groups that end before it are closed, and it is opened inside those
that contain it. -/
theorem Swept.beginGroup {work : Work σ} (rescan : Rescan σ) (isFirst : Bool)
    (swept : Swept line spans stack first handled ((rule, span) :: left) groups work.pieces)
    (nests : ∀ group ∈ handled, group.2.Nests span)
    (later : ∀ group ∈ left, span.start ≤ group.2.start) (plain : rule.retokenize = none) :
    let begun := beginGroup scanner rescan line isFirst stack spans rule span groups work
    Swept line spans stack first (handled ++ [(rule, span)]) left begun.1 begun.2.pieces := by
  have settled (byte : Nat) (before : byte < span.start) :
      stack.contentScopes.names ++ scopesFrom line spans handled byte =
        stack.contentScopes.names ++ scopesFrom line spans (handled ++ (rule, span) :: left) byte := by
    have none : scopesFrom line spans ((rule, span) :: left) byte = [] := by
      refine scopesFrom_later line spans fun group member => ?_
      rcases List.mem_cons.mp member with rfl | member
      · exact before
      · exact Nat.lt_of_lt_of_le before (later group member)
    rw [scopesFrom_append, none, List.append_nil]
  have behind : work.pieces.reached ≤ span.start := swept.begins _ List.mem_cons_self
  obtain ⟨paints, closed, ahead⟩ := closeGroups_paints span.start swept.paints swept.ahead settled
  have still := Simulation.closeGroups_fst span.start groups work.pieces
  unfold Line.beginGroup
  simp only [plain]
  generalize closeGroups span.start groups work.pieces = result at closed paints ahead still ⊢
  obtain ⟨outer, pieces⟩ := result
  simp only at closed paints ahead still ⊢
  have among (group : OpenGroup) (member : group ∈ outer) : group ∈ groups :=
    (List.dropWhile_sublist _).subset (still ▸ member)
  -- Of the groups left open only the innermost matters: it goes on past the start of the new one.
  have innermost (group : OpenGroup) (head : outer.head? = some group) : span.start < group.stop := by
    have goesOn := List.head?_dropWhile_not (fun group : OpenGroup => decide (group.stop ≤ span.start))
      groups
    rw [← still, head] at goesOn
    simpa using goesOn
  have reached := pieces.reached_produce (innermostScopes stack outer) span.start
  have produced : Pieces.Paints (fun byte => stack.contentScopes.names ++
      scopesFrom line spans (handled ++ [(rule, span)] ++ left) byte) first
      (pieces.produce (innermostScopes stack outer) span.start) := by
    rw [List.append_assoc]
    refine paints.produce fun byte starts bound => ?_
    have goesOn (group : OpenGroup) (head : outer.head? = some group) : byte < group.stop :=
      Nat.lt_trans bound (innermost group head)
    exact (congrArg _ (scopesAhead_within goesOn stack).symm).trans
      ((ahead byte starts).trans (settled byte bound))
  have begins (group : CaptureRule × Span) (member : group ∈ left) :
      (pieces.produce (innermostScopes stack outer) span.start).reached ≤ group.2.start := by
    have starts := later group member
    omega
  have ends (group : OpenGroup) (member : group ∈ outer) :
      ∃ other ∈ handled ++ [(rule, span)], other.2.stop = group.stop := by
    obtain ⟨other, held, same⟩ := swept.ends group (among group member)
    exact ⟨other, List.mem_append_left _ held, same⟩
  cases name : resolvedName rule.name line spans with
  | none =>
    dsimp only
    refine ⟨produced, fun byte starts => ?_, ends, begins⟩
    rw [scopesFrom_append, scopesFrom_singleton, groupScopes, name, ite_self, List.append_nil]
    exact ahead byte (by omega)
  | some names =>
    dsimp only
    refine ⟨produced, fun byte starts => ?_, fun group member => ?_, begins⟩
    · rw [scopesFrom_append, scopesFrom_singleton, ← List.append_assoc, ← ahead byte (by omega)]
      by_cases goesOn : byte < span.stop
      · have encloses (group : OpenGroup) (head : outer.head? = some group) : byte < group.stop :=
          Nat.lt_of_lt_of_le goesOn (swept.encloses nests
            (among group (List.mem_of_head? head)) (innermost group head))
        rw [scopesAhead_open goesOn, scopesAhead_within encloses, if_pos ⟨by omega, goesOn⟩,
          ScopePath.names_push, groupScopes, name]
      · rw [scopesAhead_ended (Nat.le_of_not_lt goesOn), if_neg (fun holds => goesOn holds.2),
          List.append_nil]
    · rcases List.mem_cons.mp member with rfl | member
      · exact ⟨_, List.mem_append_right _ (List.mem_singleton_self _), rfl⟩
      · exact ends group member

/-- All groups of a match are walked through, in the order of their numbers. -/
theorem Swept.walkGroups {work : Work σ} (rescan : Rescan σ) (isFirst : Bool)
    {captures : CaptureTable} (numbers : List Nat)
    (swept : Swept line spans stack first handled
      (numbers.filterMap (captureAt? scanner captures spans)) groups work.pieces)
    (nested : ((handled ++ numbers.filterMap (captureAt? scanner captures spans)).map
      Prod.snd).Pairwise Span.Nests)
    (inside : ∀ group ∈ numbers.filterMap (captureAt? scanner captures spans),
      group.2.start ≤ group.2.stop ∧ group.2.stop ≤ last)
    (plain : ∀ group ∈ numbers.filterMap (captureAt? scanner captures spans),
      group.1.retokenize = none) :
    let walked := walkGroups scanner rescan line isFirst stack captures spans last numbers groups work
    Swept line spans stack first
      (handled ++ numbers.filterMap (captureAt? scanner captures spans)) [] walked.1
      walked.2.pieces := by
  induction numbers generalizing handled groups work with
  | nil =>
    rw [List.filterMap_nil, List.append_nil]
    exact swept
  | cons number numbers ih =>
    rw [Line.walkGroups]
    cases captured : captureAt? scanner captures spans number with
    | none =>
      rw [List.filterMap_cons_none captured] at *
      exact ih swept nested inside plain
    | some group =>
      obtain ⟨rule, span⟩ := group
      rw [List.filterMap_cons_some captured] at *
      obtain ⟨⟨order, stops⟩, insideRest⟩ := List.forall_mem_cons.mp inside
      obtain ⟨plainFirst, plainRest⟩ := List.forall_mem_cons.mp plain
      simp only
      rw [if_neg (Nat.not_lt.mpr (Nat.le_trans order stops))]
      obtain ⟨_, leftNested, across⟩ := List.pairwise_append.mp (List.map_append ▸ nested)
      have nests (group : CaptureRule × Span) (member : group ∈ handled) : group.2.Nests span :=
        across _ (List.mem_map_of_mem member) _ List.mem_cons_self
      have later (group : CaptureRule × Span)
          (member : group ∈ numbers.filterMap (captureAt? scanner captures spans)) :
          span.start ≤ group.2.start := by
        rcases (List.pairwise_cons.mp leftNested).1 _ (List.mem_map_of_mem member) with within | after
        · exact within.start
        · exact Nat.le_trans order after
      rw [List.append_cons] at nested ⊢
      exact ih (swept.beginGroup rescan isFirst nests later plainFirst) nested insideRest plainRest

/-- The groups of a match give their scopes to the bytes that they took. -/
theorem produceCaptures_paints {work : Work σ} (rescan : Rescan σ) (line : SourceLine) (isFirst : Bool)
    (stack : Stack) {captures : CaptureTable} {whole : Span} (held : spans.whole = some whole)
    (reached : work.pieces.reached = whole.start)
    (nested : ((takenGroups scanner spans captures).map Prod.snd).Pairwise Span.Nests)
    (inside : ∀ group ∈ takenGroups scanner spans captures, group.2.Inside whole)
    (plain : ∀ group ∈ takenGroups scanner spans captures, group.1.retokenize = none) :
    ((produceCaptures scanner rescan line isFirst stack captures spans work).produceTop stack
      whole.stop).pieces.Paints (fun byte => stack.contentScopes.names ++
        scopesFrom line spans (takenGroups scanner spans captures) byte) whole.start := by
  have swept : Swept line spans stack whole.start [] (takenGroups scanner spans captures) []
      work.pieces := .start reached fun group member => (inside group member).start
  have within (group : CaptureRule × Span) (member : group ∈ takenGroups scanner spans captures) :
      group.2.start ≤ group.2.stop ∧ group.2.stop ≤ whole.stop :=
    ⟨(inside group member).order, (inside group member).stop⟩
  have walked := swept.walkGroups rescan isFirst (List.range (min captures.size spans.size)) nested
    within plain
  rw [List.nil_append] at walked
  unfold produceCaptures
  simp only [held]
  generalize Line.walkGroups scanner rescan line isFirst stack captures spans whole.stop
    (List.range (min captures.size spans.size)) [] work = result at walked ⊢
  obtain ⟨groups, after⟩ := result
  have paints := walked.paints
  rw [List.append_nil] at paints
  -- Every open group ends by the end of the match, where the scopes around the match take over.
  have ends (group : OpenGroup) (member : group ∈ groups) : group.stop ≤ whole.stop := by
    obtain ⟨other, among, same⟩ := walked.ends group member
    exact same ▸ (inside other among).stop
  have closes := closeAllGroups_eq ends after.pieces
  obtain ⟨closed, _, ahead⟩ := closeGroups_paints whole.stop paints walked.ahead fun _ _ => rfl
  simp only [closes] at closed ahead
  exact closed.produce fun byte starts _ => ahead byte starts

end Sweep

section Match

variable {σ : Type} {scanner : Scanner σ} {line : SourceLine} {cursor : Cursor} {found : Match}

/-- The groups that a match of a rule within a line handles nest: each lies inside every earlier one
or after it, all lie inside the match, and none is scanned again. -/
structure GroupsNest (scanner : Scanner σ) (rule : SingleRule) (found : Match) : Prop where
  nested : ((takenGroups scanner found.spans rule.captures).map Prod.snd).Pairwise Span.Nests
  inside : ∀ group ∈ takenGroups scanner found.spans rule.captures,
    group.2.Inside ⟨found.start, found.stop⟩
  plain : ∀ group ∈ takenGroups scanner found.spans rule.captures, group.1.retokenize = none

/-- The scopes that a byte of a match of a rule within a line should get: those of the frame of the
rule, and then those of the groups that took the byte. -/
def scopesInMatch (scanner : Scanner σ) (line : SourceLine) (stack : Stack) (rule : SingleRule)
    (found : Match) (byte : Nat) : List String :=
  (stack.contentScopes.push scanner.styling (resolvedName rule.name line found.spans)).names ++
    scopesFrom line found.spans (takenGroups scanner found.spans rule.captures) byte

/-- A match of a rule within a line leaves a piece with the right scopes for each of its bytes. -/
theorem enterRule_covers {id : RuleId} {rule : SingleRule} (rescan : Rescan σ) (line : SourceLine)
    (cursor : Cursor) (work : Work σ) (single : scanner.grammar.rule id = .single rule)
    (whole : found.spans.whole = some ⟨found.start, found.stop⟩)
    (nest : GroupsNest scanner rule found) (reached : work.pieces.reached ≤ found.start)
    (starts : found.start ≤ byte) (bound : byte < found.stop) :
    ∃ piece ∈ (enterRule scanner rescan line cursor found id work).work.pieces.items.toList,
      piece.start ≤ byte ∧ byte < piece.stop ∧
      piece.scopes.names = scopesInMatch scanner line cursor.stack rule found byte := by
  let stack := cursor.stack.push id (some cursor.pos) cursor.anchor (found.stop = line.byteSize)
    (cursor.stack.contentScopes.push scanner.styling (resolvedName rule.name line found.spans))
  let after := (produceCaptures scanner rescan line cursor.isFirst stack rule.captures found.spans
    (work.produceTop cursor.stack found.start)).produceTop stack found.stop
  have begun : (work.produceTop cursor.stack found.start).pieces.reached = found.start := by
    have := work.pieces.reached_produce cursor.stack.contentScopes found.start
    exact this.trans (Nat.max_eq_right reached)
  have paints := produceCaptures_paints rescan line cursor.isFirst stack whole begun
     nest.nested nest.inside nest.plain
  have arrived : found.stop ≤ after.pieces.reached := by
    have := Pieces.reached_produce (produceCaptures scanner rescan line cursor.isFirst stack
      rule.captures found.spans (work.produceTop cursor.stack found.start)).pieces
        stack.contentScopes found.stop
    exact this ▸ Nat.le_max_right _ _
  obtain ⟨piece, member, covers⟩ := paints byte starts (Nat.lt_of_lt_of_le bound arrived)
  refine ⟨piece, ?_, covers⟩
  simp only [enterRule, single, spanning?, Rule.name, matchSingle, capturesOf]
  split
  · exact (keeps_piece scanner piece).produce _ _ _ trivial member
  · exact member

/-- A step that finds a match of a rule enters the rule. -/
theorem step_enter {work : Work σ} {id : RuleId} (rescan : Rescan σ)
    (answer : (scanner.finder.next line cursor.pos cursor.flavour cursor.stack work.finder).1 =
      some found) (enters : found.target = .enter id) :
    step scanner rescan line cursor work = enterRule scanner rescan line cursor found id
      { work with finder := (scanner.finder.next line cursor.pos cursor.flavour cursor.stack
        work.finder).2 } := by
  simp only [step, answer, enters]

/-- What a step has produced stays, whether the scan goes on or not. -/
theorem piece_stays_of_step {work : Work σ} (produced : piece ∈ (step scanner
      (rescanGroup scanner depth) line cursor work).work.pieces.items.toList)
    (inTime : expired steps = false) :
    piece ∈ (scanFrom scanner (rescanGroup scanner depth) expired line (steps + 1) cursor
      work).work.pieces.items.toList := by
  rw [scanFrom, if_neg (by simp [inTime])]
  cases taken : step scanner (rescanGroup scanner depth) line cursor work with
  | done stack final =>
    rw [taken] at produced
    exact produced
  | next next after =>
    rw [taken] at produced
    exact piece_stays produced scanner depth expired line steps next

/-- What is found spans what it took. -/
theorem Workspace.Faithful.findNext_whole {workspace : Workspace}
    (faithful : workspace.Faithful engine grammar known count) (member : line ∈ known)
    (answer : (Line.findNext engine grammar line pos flavour stack workspace).1 = some found) :
    found.spans.whole = some ⟨found.start, found.stop⟩ := by
  obtain ⟨_, _, _, _, _, _, _, _, _, matched⟩ := faithful.findNext_sighted member answer
  obtain ⟨whole, same, _⟩ := Entry.start_of_toMatch matched
  exact same ▸ whole

/-- A step leaves pieces that lie side by side. -/
theorem Work.Tiling.of_step {next : Cursor} {engine : Engine} {grammar : CompiledGrammar}
    {styling : Styling} {work after : Work Workspace} (respects : engine.RespectsCuts)
    (tiling : Work.Tiling engine grammar line [line] work work)
    (taken : step (remembering engine grammar styling)
      (rescanGroup (remembering engine grammar styling) depth) line cursor work = .next next after) :
    Work.Tiling engine grammar line [line] after after := by
  have stepped : Work.Tiling engine grammar line [line]
      (step (remembering engine grammar styling)
        (rescanGroup (remembering engine grammar styling) depth) line cursor work).work
      (step (remembering engine grammar styling)
        (rescanGroup (remembering engine grammar styling) depth) line cursor work).work :=
    (Simulation.step_agree (tilings_follow respects styling depth line grammar) tiling
      (List.mem_singleton_self line) (.refl cursor.stack) trivial).work
  rwa [taken] at stepped

end Match

/-- A character that starts in a piece of a line is in a token with the scopes of the piece. -/
theorem token_at {text : String} {pieces : Pieces} (tiled : pieces.Tiled (Tokenizer.lineOf text))
    (member : piece ∈ pieces.items.toList) (scopes : ScopePath) (bound : char < text.length)
    (starts : piece.start ≤ (Tokenizer.lineOf text).charToByte char)
    (stops : (Tokenizer.lineOf text).charToByte char < piece.stop) :
    ∃ token ∈ tokens (Tokenizer.lineOf text) pieces scopes,
      token.start ≤ char ∧ char < token.stop ∧ token.scopes = piece.scopes.names := by
  obtain ⟨startCut, stopCut⟩ := tiled.cuts piece member
  have inLine : char ≤ (Tokenizer.lineOf text).charCount := by
    rw [charCount_lineOf]
    omega
  have here := (Tokenizer.lineOf text).byteToChar_charToByte inLine
  refine token_of_piece member scopes ?_ ?_ bound
  · rcases Nat.lt_or_eq_of_le starts with before | same
    · exact Nat.le_of_lt (here ▸ startCut.byteToChar_lt (SourceLine.cut_charToByte _) before)
    · exact Nat.le_of_eq (same ▸ here)
  · exact here ▸ (SourceLine.cut_charToByte _).byteToChar_lt stopCut stops

end Line

/-- The work at every head of the scan of a line lies side by side, and the scan goes on from it. -/
theorem Tokenizer.tiling_of_heads (tokenizer : Tokenizer) {engine : Engine}
    (respects : engine.RespectsCuts) {store : Store} (used : InUse engine tokenizer.grammar store)
    {theme : Theme} {state : Option Stack} {text : String} {clock : Clock}
    {head : Line.Head Line.Workspace}
    (member : head ∈ tokenizer.heads engine theme state text clock store) :
    Line.Work.Tiling engine tokenizer.grammar (lineOf text) [lineOf text] head.work head.work ∧
      tokenizer.outcome engine theme state text clock store =
        Line.scanFrom (tokenizer.scanner engine theme) (tokenizer.rescan engine theme) clock
          (lineOf text) (head.steps + 1) head.cursor head.work := by
  have start : Line.Work.Tiling engine tokenizer.grammar (lineOf text) [lineOf text]
      { finder := { store := store } } { finder := { store := store } } := by
    refine ⟨rfl, .start used.serves Nat.zero_lt_one, ?_, Line.Pieces.tiled_empty _⟩
    intro line among byte cut
    rwa [List.mem_singleton.mp among] at cut
  obtain ⟨_, _, _, started⟩ := Line.Simulation.checkConditions_related
    (Line.tilings_follow respects (tokenizer.styling theme) tokenizer.depth (lineOf text)
      tokenizer.grammar) start
    (List.mem_singleton_self _) (.refl (tokenizer.startStack theme state)) rfl state.isNone trivial
  obtain ⟨earlier, later, split⟩ := List.append_of_mem member
  let Good (_ : Line.Cursor) (work : Line.Work Line.Workspace) : Prop :=
    Line.Work.Tiling engine tokenizer.grammar (lineOf text) [lineOf text] work work
  have keeps : ∀ before ∈ earlier, Good before.cursor before.work → ∀ next after,
      Line.step (tokenizer.scanner engine theme) (tokenizer.rescan engine theme) (lineOf text)
        before.cursor before.work = .next next after → Good next after :=
    fun _ _ tiling _ _ taken => Line.Work.Tiling.of_step respects tiling taken
  exact Line.of_heads split started keeps

/-- The groups of a match of a rule within a line nest. If none of them is scanned again, each lies
inside every earlier one or after it, all lie inside the match, and nothing has been produced past the
start of the match, then every byte of the match is in a piece with the scopes of the rule's frame,
followed by those of exactly the groups that took the byte, in their order. This holds for every match,
also one in a group that is scanned again. On the line itself the pieces of a match become tokens, so
every character of the match is in a token with these scopes, however the scan goes on. -/
theorem captures_nest_pointwise :
    (∀ (σ : Type) (scanner : Line.Scanner σ) (rescan : Line.Rescan σ) (line : SourceLine)
        (cursor : Line.Cursor) (found : Line.Match) (id : RuleId) (rule : SingleRule)
        (work : Line.Work σ),
      scanner.grammar.rule id = .single rule →
      found.spans.whole = some ⟨found.start, found.stop⟩ →
      Line.GroupsNest scanner rule found → work.pieces.reached ≤ found.start →
      ∀ byte, found.start ≤ byte → byte < found.stop →
        ∃ piece ∈ (Line.enterRule scanner rescan line cursor found id work).work.pieces.items.toList,
          piece.start ≤ byte ∧ byte < piece.stop ∧
          piece.scopes.names = Line.scopesInMatch scanner line cursor.stack rule found byte) ∧
    ∀ (tokenizer : Tokenizer) (engine : Engine) (store : Store) (theme : Theme)
        (state : Option Stack) (text : String) (clock : Clock) (head : Line.Head Line.Workspace)
        (found : Line.Match) (id : RuleId) (rule : SingleRule),
      let scanner := tokenizer.scanner engine theme
      let line := Tokenizer.lineOf text
      engine.RespectsCuts → InUse engine tokenizer.grammar store →
      head ∈ tokenizer.heads engine theme state text clock store → clock head.steps = false →
      head.found scanner line = some found → found.target = .enter id →
      tokenizer.grammar.rule id = .single rule →
      Line.GroupsNest scanner rule found → head.work.pieces.reached ≤ found.start →
      ∀ char < text.length, found.start ≤ line.charToByte char → line.charToByte char < found.stop →
        ∃ token ∈ (tokenizer.scanLine engine theme state text clock store).1.tokens,
          token.start ≤ char ∧ char < token.stop ∧
          token.scopes = Line.scopesInMatch scanner line head.cursor.stack rule found
            (line.charToByte char) := by
  refine ⟨?_, ?_⟩
  · intro σ scanner rescan line cursor found id rule work single whole nest reached byte starts bound
    exact Line.enterRule_covers rescan line cursor work single whole nest reached starts bound
  intro tokenizer engine store theme state text clock head found id rule scanner line respects used
    member inTime answer enters single nest reached char inText starts stops
  obtain ⟨tiling, goesOn⟩ := tokenizer.tiling_of_heads respects used member
  have whole := tiling.faithful.findNext_whole (List.mem_singleton_self line) answer
  obtain ⟨piece, produced, starts, stops, scopes⟩ := Line.enterRule_covers
    (tokenizer.rescan engine theme) line head.cursor
    { head.work with finder := (scanner.finder.next line head.cursor.pos head.cursor.flavour
      head.cursor.stack head.work.finder).2 }
    single whole nest reached starts stops
  rw [← Line.step_enter _ answer enters] at produced
  have held : piece ∈ (tokenizer.outcome engine theme state text clock
      store).work.pieces.items.toList := by
    rw [goesOn]
    exact Line.piece_stays_of_step produced inTime
  obtain ⟨token, among, covers⟩ := Line.token_at
    (tokenizer.scanLine_tiled respects used theme state text clock) held
    (tokenizer.outcome engine theme state text clock store).stack.forgetLine.contentScopes inText starts
    stops
  exact ⟨token, among, covers.1, covers.2.1, covers.2.2.trans scopes⟩

namespace Bindings

/-- A grammar with a rule for a binding. One of its groups holds two others, and one of these has no
name. -/
def source : GrammarSource where
  scopeName := "source.b"
  patterns := [4]
  rules := #[{ name := some "keyword" }, { name := some "meta.binding named.$3" },
    { name := some "variable" }, {},
    { matchPattern := some "(let) ((\\w+)=(\\d+))", name := some "statement"
      captures := some ⟨[("1", 0), ("2", 1), ("3", 2), ("4", 3)]⟩ }]

@[irreducible]
def compilation : Compilation :=
  (compile "source.b" ⟨[("source.b", source)]⟩ [] backtracking {}).1.toOption.get (by decide +kernel)

def tokenizer : Tokenizer := { serial := 0, rulesSerial := 1, grammar := compilation.grammar }

/-- The store of the grammar before the first line. -/
def store : Store := { patterns := compilation.patterns }

theorem compiles :
    (compile "source.b" ⟨[("source.b", source)]⟩ [] backtracking {}).1.toOption =
      some compilation := by
  rw [compilation, Option.some_get]

theorem inUse : InUse backtracking tokenizer.grammar store := .of_toOption compiles

/-- Where the first step on the line `let a=12` starts. -/
def head : Line.Head Line.Workspace :=
  (tokenizer.heads backtracking .plain none "let a=12" (fun _ => false) store).get
    ⟨0, by decide +kernel⟩

def rule : SingleRule := ⟨some "statement", 0, ⟨#[none, some 2, some 3, some 4, some 5]⟩⟩

/-- The binding that the step finds. -/
def binding : Line.Match :=
  ⟨.enter 1, 0, 8, #[some ⟨0, 8⟩, some ⟨0, 3⟩, some ⟨4, 8⟩, some ⟨4, 5⟩, some ⟨6, 8⟩]⟩

theorem nest : Line.GroupsNest (tokenizer.scanner backtracking .plain) rule binding :=
  ⟨by decide +kernel, by decide +kernel, by decide +kernel⟩

end Bindings

/-- The variable of a binding is in a group inside a group, and what follows it in the outer one
only. -/
theorem captures_nest_pointwise_bindings :
    let scanner := Bindings.tokenizer.scanner backtracking .plain
    (InUse backtracking Bindings.tokenizer.grammar Bindings.store ∧ backtracking.RespectsCuts ∧
      Bindings.head ∈ Bindings.tokenizer.heads backtracking .plain none "let a=12" (fun _ => false)
        Bindings.store ∧
      Bindings.head.found scanner (Tokenizer.lineOf "let a=12") = some Bindings.binding ∧
      Bindings.tokenizer.grammar.rule 1 = .single Bindings.rule ∧
      Line.GroupsNest scanner Bindings.rule Bindings.binding ∧
      Bindings.head.work.pieces.reached ≤ 0) ∧
    (∃ piece ∈ (Line.enterRule scanner (fun _ _ _ _ work => work) (Tokenizer.lineOf "let a=12")
        Bindings.head.cursor Bindings.binding 1 Bindings.head.work).work.pieces.items.toList,
      piece.start ≤ 5 ∧ 5 < piece.stop ∧
      piece.scopes.names = ["source.b", "statement", "meta.binding", "named.a"]) ∧
    ∃ token ∈ (Bindings.tokenizer.scanLine backtracking .plain none "let a=12" (fun _ => false)
        Bindings.store).1.tokens,
      token.start ≤ 4 ∧ 4 < token.stop ∧
      token.scopes = ["source.b", "statement", "meta.binding", "named.a", "variable"] := by
  intro scanner
  have member : Bindings.head ∈ Bindings.tokenizer.heads backtracking .plain none "let a=12"
      (fun _ => false) Bindings.store := List.get_mem _ _
  have answer : Bindings.head.found scanner (Tokenizer.lineOf "let a=12") =
      some Bindings.binding := by decide +kernel
  have single : Bindings.tokenizer.grammar.rule 1 = .single Bindings.rule := by decide +kernel
  have reached : Bindings.head.work.pieces.reached ≤ 0 := by decide +kernel
  obtain ⟨pieces, tokens⟩ := captures_nest_pointwise
  obtain ⟨piece, among, starts, stops, scopes⟩ := pieces _ scanner (fun _ _ _ _ work => work)
    (Tokenizer.lineOf "let a=12") Bindings.head.cursor Bindings.binding 1 Bindings.rule
    Bindings.head.work single rfl Bindings.nest reached 5 (by decide) (by decide)
  obtain ⟨token, inLine, first, last, names⟩ := tokens Bindings.tokenizer backtracking Bindings.store
    .plain none "let a=12" (fun _ => false) Bindings.head Bindings.binding 1 Bindings.rule
    respectsCuts_backtracking Bindings.inUse member rfl answer rfl single Bindings.nest reached 4
    (by decide) (by decide +kernel) (by decide +kernel)
  refine ⟨⟨Bindings.inUse, respectsCuts_backtracking, member, answer, single, Bindings.nest, reached⟩,
    ⟨piece, among, starts, stops, scopes.trans ?_⟩, token, inLine, first, last, names.trans ?_⟩
  · decide +kernel
  · decide +kernel

end ScopeLexer

import ScopeLexer.Proofs.CaptureNesting
import ScopeLexer.Proofs.ContenderScan
import ScopeLexer.Proofs.ReachableStates

/-!
The conditions that are checked where a line starts. The frames that earlier lines have left are gone
through from the bottom up, and those whose rule has a condition are asked for it. The condition of each
is sought where the match of the one before ends, with what that match says of the search: where `\G`
holds, and whether nothing of the first line has been matched. If all conditions hold the stack stays.
If not, the first that does not hold takes its frame away, with all above it.

What the scan does after that leaves a frame from an earlier line as it is, or takes it away. So every
frame that a line hands on from the line before has had its condition matched, on that line and in turn.
-/
namespace ScopeLexer

open Grammar Pattern Regex

section Frames

variable (grammar : CompiledGrammar)

/-- The rule of a frame has a condition. -/
def CompiledGrammar.hasCondition (frame : Frame) : Bool :=
  match grammar.rule frame.rule with
  | .block _ => true
  | _ => false

/-- The frames with conditions, the outermost first. The frames are given from the top down. -/
def CompiledGrammar.conditioned (frames : List Frame) : List Frame :=
  (frames.filter grammar.hasCondition).reverse

theorem CompiledGrammar.conditioned_append (upper lower : List Frame) :
    grammar.conditioned (upper ++ lower) = grammar.conditioned lower ++ grammar.conditioned upper := by
  simp [conditioned]

theorem CompiledGrammar.conditioned_cons {frame : Frame} (has : grammar.hasCondition frame = true)
    (below : List Frame) :
    grammar.conditioned (frame :: below) = grammar.conditioned below ++ [frame] := by
  simp [conditioned, has]

/-- The lower frames are gone through before the others. -/
theorem CompiledGrammar.conditioned_suffix {lower frames : List Frame} (below : lower <:+ frames) :
    ∃ upper, grammar.conditioned frames = grammar.conditioned lower ++ upper := by
  obtain ⟨upper, rfl⟩ := below
  exact ⟨_, grammar.conditioned_append upper lower⟩

end Frames

/-- The frame at the bottom is the last. -/
theorem Frame.Piled.eq_of_suffix {grammar : CompiledGrammar} {bottom frame : Frame}
    {frames : List Frame} (piled : Piled grammar bottom frames) (last : [frame] <:+ frames) :
    frame = bottom := by
  induction piled with
  | ground =>
    have same := last.eq_of_length rfl
    exact List.singleton_inj.mp same
  | upper _ _ _ _ _ ih =>
    rcases List.suffix_cons_iff.mp last with whole | inside
    · cases whole
    · exact ih inside

/-- Between lines, there is nothing to forget of a frame. -/
theorem Stack.forgetFrame_eq {stack : Stack} (forgotten : stack.forgetLine = stack)
    (member : frame ∈ stack.frames) : Stack.forgetFrame frame = frame := by
  have frames : stack.frames.map Stack.forgetFrame = stack.frames := congrArg Stack.frames forgotten
  rw [← frames] at member
  obtain ⟨before, _, rfl⟩ := List.mem_map.mp member
  rfl

namespace Line

section Conditions

variable (engine : Engine) (grammar : CompiledGrammar) (line : SourceLine)

/-- The condition of a frame, if its rule has one. If it refers to what the start has captured it is
the one of the frame, in which that has been put. -/
def conditionOf (frame : Frame) : Option Contender :=
  match grammar.rule frame.rule with
  | .block rule =>
    (match rule.conditionHasReferences, frame.ending with
    | true, some text => some (Pattern.ofText text)
    | _, _ => grammar.patterns[rule.condition]?).map fun pattern => ⟨.leave, pattern⟩
  | _ => none

/-- The condition of a frame is sound, if it has one. -/
def SoundCondition (frame : Frame) : Prop :=
  ∀ contender, conditionOf grammar frame = some contender →
    ∀ flavour, contender.Sound engine flavour

/-- The match of the condition of a frame, sought from where a cursor is. -/
def conditionFrom (cursor : Cursor) (frame : Frame) : Option Match :=
  (conditionOf grammar frame).bind
    (Contender.matchFrom engine cursor.flavour line cursor.pos)

/-- Where the next condition is sought, one having matched. -/
def Cursor.past (cursor : Cursor) (found : Match) : Cursor where
  stack := cursor.stack
  pos := found.stop
  anchor := some found.stop
  isFirst := cursor.isFirst && decide (found.stop = cursor.pos)

/-- The conditions of frames match one after the other, each sought from the end of the match
before. They lead from one cursor to another, and never back. -/
inductive HoldInTurn : Cursor → List Frame → Cursor → Prop where
  | done (cursor : Cursor) : HoldInTurn cursor [] cursor
  | next {cursor last : Cursor} {frame : Frame} {found : Match} {frames : List Frame}
    (holds : conditionFrom engine grammar line cursor frame = some found)
    (starts : cursor.pos ≤ found.start) (ends : found.start ≤ found.stop)
    (others : HoldInTurn (cursor.past found) frames last) :
    HoldInTurn cursor (frame :: frames) last

/-- Where the conditions of frames lead, if they hold in turn. -/
def turns? (cursor : Cursor) : List Frame → Option Cursor
  | [] => some cursor
  | frame :: frames =>
    (conditionFrom engine grammar line cursor frame).bind fun found =>
      if cursor.pos ≤ found.start ∧ found.start ≤ found.stop then turns? (cursor.past found) frames
      else none

/-- What the check of conditions comes to, by where it starts. -/
inductive Checked (start : Cursor) : Cursor → Prop where
  /-- All conditions hold. -/
  | held {last : Cursor}
    (all : HoldInTurn engine grammar line start (grammar.conditioned start.stack.frames) last) :
    Checked start last
  /-- The conditions below a frame hold, and then its own does not: its rule is left, with all
  inside it. -/
  | left {frame : Frame} {parent : Stack} {passed : Cursor}
    (standing : frame :: parent.frames <:+ start.stack.frames)
    (has : grammar.hasCondition frame = true)
    (outer : HoldInTurn engine grammar line start (grammar.conditioned parent.frames) passed)
    (fails : conditionFrom engine grammar line passed frame = none) :
    Checked start { passed with stack := parent }

end Conditions

section Turns

variable {engine : Engine} {grammar : CompiledGrammar} {line : SourceLine}
  {cursor last : Cursor} {frames : List Frame}

theorem HoldInTurn.stack (turns : HoldInTurn engine grammar line cursor frames last) :
    last.stack = cursor.stack := by
  induction turns with
  | done => rfl
  | next _ _ _ _ ih => exact ih

theorem HoldInTurn.pos_le (turns : HoldInTurn engine grammar line cursor frames last) :
    cursor.pos ≤ last.pos := by
  induction turns with
  | done => exact Nat.le_refl _
  | next _ starts ends _ ih => exact Nat.le_trans (Nat.le_trans starts ends) ih

/-- From a cursor, conditions lead to one other at most. -/
theorem holdInTurn_iff :
    HoldInTurn engine grammar line cursor frames last ↔
      turns? engine grammar line cursor frames = some last := by
  constructor
  · intro turns
    induction turns with
    | done => rfl
    | next holds starts ends _ ih => simpa [turns?, holds, starts, ends] using ih
  · intro leads
    induction frames generalizing cursor with
    | nil =>
      cases leads
      exact .done _
    | cons frame frames ih =>
      obtain ⟨found, holds, leads⟩ := Option.bind_eq_some_iff.mp leads
      obtain ⟨⟨starts, ends⟩, leads⟩ := Option.ite_none_right_eq_some.mp leads
      exact .next holds starts ends (ih leads)

theorem HoldInTurn.append_inv {front back : List Frame}
    (turns : HoldInTurn engine grammar line cursor (front ++ back) last) :
    ∃ middle, HoldInTurn engine grammar line cursor front middle ∧
      HoldInTurn engine grammar line middle back last := by
  induction front generalizing cursor with
  | nil => exact ⟨cursor, .done cursor, turns⟩
  | cons frame front ih =>
    cases turns with
    | next holds starts ends others =>
      obtain ⟨middle, first, rest⟩ := ih others
      exact ⟨middle, .next holds starts ends first, rest⟩

/-- The conditions of the lower frames of a stack are the first to hold. -/
theorem HoldInTurn.of_suffix {lower : List Frame}
    (turns : HoldInTurn engine grammar line cursor (grammar.conditioned frames) last)
    (below : lower <:+ frames) :
    ∃ middle, HoldInTurn engine grammar line cursor (grammar.conditioned lower) middle := by
  obtain ⟨upper, split⟩ := grammar.conditioned_suffix below
  rw [split] at turns
  obtain ⟨middle, first, _⟩ := turns.append_inv
  exact ⟨middle, first⟩

/-- Each of the conditions has matched. -/
theorem HoldInTurn.matched (turns : HoldInTurn engine grammar line cursor frames last)
    (member : frame ∈ frames) :
    ∃ before found, cursor.pos ≤ before.pos ∧ before.pos ≤ found.start ∧
      conditionFrom engine grammar line before frame = some found := by
  induction turns with
  | done => cases member
  | next holds starts ends others ih =>
    rcases List.mem_cons.mp member with rfl | among
    · exact ⟨_, _, Nat.le_refl _, starts, holds⟩
    · obtain ⟨before, found, ahead, sought, same⟩ := ih among
      exact ⟨before, found, Nat.le_trans (Nat.le_trans starts ends) ahead, sought, same⟩

variable {start : Cursor}

/-- The check of conditions takes nothing away but frames from the top. -/
theorem Checked.suffix (checked : Checked engine grammar line start cursor) :
    cursor.stack.frames <:+ start.stack.frames := by
  cases checked with
  | held all => exact all.stack ▸ List.suffix_refl _
  | left standing has outer fails => exact (List.suffix_cons _ _).trans standing

/-- The conditions of the frames that stay have held. -/
theorem Checked.stays (checked : Checked engine grammar line start cursor) :
    ∃ last, HoldInTurn engine grammar line start (grammar.conditioned cursor.stack.frames) last := by
  cases checked with
  | held all =>
    rw [all.stack]
    exact ⟨_, all⟩
  | left standing has outer fails => exact ⟨_, outer⟩

theorem Checked.pos_le (checked : Checked engine grammar line start cursor) :
    start.pos ≤ cursor.pos := by
  cases checked with
  | held all => exact all.pos_le
  | left standing has outer fails => exact outer.pos_le

/-- The stack stays as it is exactly if all conditions hold. -/
theorem Checked.stack_eq_iff (checked : Checked engine grammar line start cursor) :
    cursor.stack = start.stack ↔
      ∃ last, HoldInTurn engine grammar line start (grammar.conditioned start.stack.frames) last := by
  cases checked with
  | held all => exact iff_of_true all.stack ⟨_, all⟩
  | @left frame parent passed standing has outer fails =>
    refine iff_of_false (fun same => ?_) fun ⟨last, all⟩ => ?_
    · have same : parent = start.stack := same
      have shorter := standing.length_le
      rw [same, List.length_cons] at shorter
      omega
    · obtain ⟨middle, turns⟩ := all.of_suffix standing
      rw [grammar.conditioned_cons has] at turns
      obtain ⟨middle, below, own⟩ := turns.append_inv
      cases (holdInTurn_iff.mp below).symm.trans (holdInTurn_iff.mp outer)
      cases own with
      | next holds => cases fails.symm.trans holds

end Turns

section Check

variable {engine : Engine} {grammar : CompiledGrammar} {line : SourceLine} {cursor : Cursor}
  {frame : Frame} {found : Match}

theorem SoundCondition.bounds (sound : SoundCondition engine grammar frame)
    (holds : conditionFrom engine grammar line cursor frame = some found) :
    cursor.pos ≤ found.start ∧ found.start ≤ found.stop ∧ found.stop ≤ line.byteSize := by
  obtain ⟨contender, own, seen⟩ := Option.bind_eq_some_iff.mp holds
  exact (sound contender own cursor.flavour).bounds seen

/-- The set of the condition of a frame holds the condition. It is put into it as the end of a region
with the same pattern would be. -/
theorem taken_rebuiltConditionSet (engine : Engine) (grammar : CompiledGrammar) (frame : Frame)
    (flavour : Flavour) :
    taken (rebuiltConditionSet engine grammar ⟨frame.rule, flavour, frame.ending⟩).entries =
      taken ((conditionOf grammar frame).toList.map (Contender.entry engine flavour)) := by
  unfold rebuiltConditionSet buildConditionSet conditionOf
  cases grammar.rule frame.rule with
  | block rule =>
    exact taken_endingEntry (Store.serves_untouched engine grammar)
      { (default : RegionRule) with
        stop := rule.condition, stopHasReferences := rule.conditionHasReferences }
      ⟨frame.rule, flavour, frame.ending⟩
  | single | group | region | capture | reserved => rfl

/-- A set with one pattern at most finds what the pattern matches. -/
theorem PatternSet.bestAfresh_eq_head? {entries : List Entry} (few : entries.length ≤ 1)
    (line : SourceLine) (pos : Nat) :
    bestAfresh line pos none entries = (entries.filterMap (Entry.matchAfresh line pos)).head? := by
  match entries, few with
  | [], _ => rfl
  | [entry], _ =>
    have own : (entry.searchAfresh line pos).bind entry.toMatch = entry.matchAfresh line pos := rfl
    rw [bestAfresh, own]
    cases seen : entry.matchAfresh line pos with
    | none => simp [bestAfresh, seen]
    | some found =>
      have first : (some found).filter (better none) = some found := rfl
      simp only [first, bestAfresh, ite_self, List.filterMap_cons_some seen, List.head?_cons]

/-- The set made for a condition finds what the condition itself finds, searched afresh. -/
theorem findAfresh_rebuiltConditionSet (engine : Engine) (grammar : CompiledGrammar)
    (line : SourceLine) (cursor : Cursor) (frame : Frame) :
    (rebuiltConditionSet engine grammar ⟨frame.rule, cursor.flavour, frame.ending⟩).findAfresh line
      cursor.pos = conditionFrom engine grammar line cursor frame := by
  have few : (rebuiltConditionSet engine grammar
      ⟨frame.rule, cursor.flavour, frame.ending⟩).entries.length ≤ 1 := by
    unfold rebuiltConditionSet buildConditionSet
    cases grammar.rule frame.rule <;> simp
  have same := matches_of_taken line cursor.pos
    (taken_rebuiltConditionSet engine grammar frame cursor.flavour)
  rw [PatternSet.findAfresh, conditionFrom]
  generalize (rebuiltConditionSet engine grammar
    ⟨frame.rule, cursor.flavour, frame.ending⟩).entries = entries at few same ⊢
  have first := congrArg List.head? same
  rw [PatternSet.bestAfresh_eq_head? few, first]
  cases conditionOf grammar frame <;> simp

/-- With the bounds of its match, a condition that holds leads past the match. -/
theorem Cursor.advance_eq_past (cursor : Cursor) (ahead : cursor.pos ≤ found.stop) :
    Cursor.advance { cursor with anchor := some found.stop } found.stop = cursor.past found := by
  unfold Cursor.advance Cursor.past
  simp only
  split
  next moves => simp [Nat.ne_of_gt moves]
  next stays =>
    have same : found.stop = cursor.pos := by omega
    simp [same]

variable (styling : Styling) (depth : Nat) {work : Work Workspace}

/-- What has been remembered does not show in the check of a condition: the condition is sought
from where the cursor is, and goes on past its match. -/
theorem checkCondition_eq {stack : Stack} (sound : SoundCondition engine grammar stack.top)
    (twins : Work.Twins engine grammar [line] work work) (cursor : Cursor) (rule : BlockRule) :
    let scanner := remembering engine grammar styling
    let checked := checkCondition scanner (rescanGroup scanner depth) line cursor stack rule work
    checked.1 = (conditionFrom engine grammar line cursor stack.top).map cursor.past ∧
      Work.Twins engine grammar [line] checked.2 checked.2 := by
  intro scanner checked
  have member := List.mem_singleton_self line
  have follows : (twinScans engine grammar styling).Follows _ _ :=
    Simulation.follows_rescanGroup _ (twinScans_exhausts engine grammar styling) depth
  refine ⟨?_, (Simulation.checkCondition_related cursor follows twins member (.refl stack)
    cursor.stack rule trivial).2⟩
  have steady : ∀ entry ∈ (rebuiltConditionSet engine grammar
      ⟨stack.top.rule, cursor.flavour, stack.top.ending⟩).entries, entry.Steady := by
    refine steady_of_taken (taken_rebuiltConditionSet engine grammar stack.top cursor.flavour) ?_
    exact fun contender held => sound contender (Option.mem_toList.mp held) cursor.flavour
  have answer : (scanner.finder.condition line cursor.pos cursor.flavour stack.top work.finder).1 =
      conditionFrom engine grammar line cursor stack.top := by
    rw [← findAfresh_rebuiltConditionSet]
    exact twins.faithful.findCondition_afresh member cursor.pos cursor.flavour stack.top steady
  unfold checked checkCondition
  simp only [answer]
  cases sought : conditionFrom engine grammar line cursor stack.top with
  | none => rfl
  | some found =>
    obtain ⟨starts, ends, _⟩ := sound.bounds sought
    exact congrArg some (cursor.advance_eq_past (Nat.le_trans starts ends))

/-- Either all conditions hold, or those before the first that does not. -/
theorem checkAll_cases {blocks : List (Stack × BlockRule)}
    (sound : ∀ block ∈ blocks, SoundCondition engine grammar block.1.top)
    (twins : Work.Twins engine grammar [line] work work) (cursor : Cursor) :
    let scanner := remembering engine grammar styling
    let checked := (checkAll scanner (rescanGroup scanner depth) line blocks cursor work).1
    HoldInTurn engine grammar line cursor (blocks.map (·.1.top)) checked ∨
      ∃ outer block inner passed, blocks = outer ++ block :: inner ∧
        HoldInTurn engine grammar line cursor (outer.map (·.1.top)) passed ∧
        conditionFrom engine grammar line passed block.1.top = none ∧
        checked = { passed with stack := block.1.pop } := by
  intro scanner checked
  induction blocks generalizing cursor work with
  | nil => exact .inl (.done cursor)
  | cons block blocks ih =>
    obtain ⟨stack, rule⟩ := block
    obtain ⟨first, others⟩ := List.forall_mem_cons.mp sound
    obtain ⟨answer, kept⟩ := checkCondition_eq styling depth first twins cursor rule
    unfold checked
    rw [checkAll]
    generalize checkCondition scanner (rescanGroup scanner depth) line cursor stack rule work = result
      at answer kept ⊢
    obtain ⟨next, left⟩ := result
    cases sought : conditionFrom engine grammar line cursor stack.top with
    | none =>
      rw [sought] at answer
      cases answer
      exact .inr ⟨[], (stack, rule), blocks, cursor, rfl, .done cursor, sought, rfl⟩
    | some found =>
      rw [sought] at answer
      cases answer
      obtain ⟨starts, ends, _⟩ := first.bounds sought
      rcases ih others kept (cursor.past found) with
        all | ⟨outer, block, inner, passed, rfl, held, fails, same⟩
      · exact .inl (.next sought starts ends all)
      · exact .inr ⟨(stack, rule) :: outer, block, inner, passed, rfl, .next sought starts ends held,
          fails, same⟩

end Check

section Blocks

variable {grammar : CompiledGrammar}

/-- The states whose top frame has a condition have these frames on top. -/
theorem map_top_blocksOf (grammar : CompiledGrammar) (frames : List Frame) :
    (blocksOf grammar frames).map (·.1.top) = grammar.conditioned frames := by
  induction frames with
  | nil => rfl
  | cons frame rest ih =>
    rw [blocksOf, List.map_append, ih]
    cases held : grammar.rule frame.rule with
    | block rule =>
      have has : grammar.hasCondition frame = true := by simp [CompiledGrammar.hasCondition, held]
      rw [grammar.conditioned_cons has]
      rfl
    | single | group | region | capture | reserved =>
      simp [CompiledGrammar.conditioned, CompiledGrammar.hasCondition, held]

/-- Each of these states is the lower part of the whole, and the states before it are those of the
frames below its top. -/
theorem blocksOf_split {frames : List Frame} {outer inner : List (Stack × BlockRule)}
    {block : Stack × BlockRule} (split : blocksOf grammar frames = outer ++ block :: inner) :
    block.1.frames <:+ frames ∧ blocksOf grammar block.1.rest = outer ∧
      grammar.rule block.1.top.rule = .block block.2 := by
  induction frames generalizing inner with
  | nil => simp [blocksOf] at split
  | cons frame rest ih =>
    have further (inner : List (Stack × BlockRule))
        (split : blocksOf grammar rest = outer ++ block :: inner) :
        block.1.frames <:+ frame :: rest ∧ blocksOf grammar block.1.rest = outer ∧
          grammar.rule block.1.top.rule = .block block.2 := by
      obtain ⟨lower, same, held⟩ := ih split
      exact ⟨lower.trans (List.suffix_cons _ _), same, held⟩
    rw [blocksOf] at split
    cases held : grammar.rule frame.rule with
    | block rule =>
      simp only [held] at split
      rcases List.eq_nil_or_concat inner with rfl | ⟨front, last, rfl⟩
      · obtain ⟨same, own⟩ := List.append_inj' split rfl
        cases own
        exact ⟨List.suffix_refl _, same, held⟩
      · have same : blocksOf grammar rest ++ [(⟨frame, rest⟩, rule)] =
            (outer ++ block :: front) ++ [last] := by simpa using split
        exact further front (List.append_inj' same rfl).1
    | single | group | region | capture | reserved =>
      simp only [held, List.append_nil] at split
      exact further inner split

end Blocks

section Reach

variable {σ : Type} {work : Work σ}

/-- What has been produced stays produced. -/
theorem reached_invariant (scanner : Scanner σ) (bound : Nat) :
    WorkInvariant scanner (fun _ => True) fun work : Work σ => bound ≤ work.pieces.reached where
  push _ _ _ _ := trivial
  produce work scopes stop _ holds := by
    unfold Work.produce
    rw [Pieces.reached_produce]
    exact Nat.le_trans holds (Nat.le_max_left _ _)
  next _ _ _ _ _ holds := holds
  condition _ _ _ _ _ holds := holds
  warn _ _ holds := holds
  number _ _ holds := holds
  exhaust _ holds := holds

variable (scanner : Scanner σ) (depth : Nat) (line : SourceLine)

/-- All up to the end of the match of a condition is produced. -/
theorem checkCondition_reached (cursor : Cursor) (stack : Stack) (rule : BlockRule)
    (behind : cursor.pos ≤ work.pieces.reached) :
    let checked := checkCondition scanner (rescanGroup scanner depth) line cursor stack rule work
    (checked.1.getD cursor).pos ≤ checked.2.pieces.reached := by
  intro checked
  have invariant := reached_invariant scanner cursor.pos
  have lies : stack.LiesIn fun _ => True := fun _ _ => ⟨trivial, trivial⟩
  unfold checked checkCondition
  simp only
  split
  · exact behind
  next found _ =>
    rw [Option.getD_some, Cursor.pos_advance, Work.produceTop, Work.produce, Pieces.reached_produce]
    refine Nat.max_le_of_le_of_le (Nat.le_trans ?_ (Nat.le_max_left _ _)) (Nat.le_max_right _ _)
    exact invariant.produceCaptures (invariant.rescanGroup depth) lies
      (invariant.produceTop lies (invariant.condition work line cursor.pos cursor.flavour stack.top
        behind) found.start) line cursor.isFirst _ _

/-- The check of conditions produces all up to where it leads. -/
theorem checkAll_reached (blocks : List (Stack × BlockRule)) (cursor : Cursor)
    (behind : cursor.pos ≤ work.pieces.reached) :
    let checked := checkAll scanner (rescanGroup scanner depth) line blocks cursor work
    checked.1.pos ≤ checked.2.pieces.reached := by
  intro checked
  induction blocks generalizing cursor work with
  | nil => exact behind
  | cons block blocks ih =>
    obtain ⟨stack, rule⟩ := block
    have kept := checkCondition_reached scanner depth line cursor stack rule behind
    unfold checked
    rw [checkAll]
    generalize checkCondition scanner (rescanGroup scanner depth) line cursor stack rule work = result
      at kept ⊢
    obtain ⟨_ | next, left⟩ := result
    · exact kept
    · exact ih next kept

end Reach

section Kept

variable {σ : Type} {scanner : Scanner σ} {line : SourceLine} {cursor next : Cursor} {work : Work σ}
  {before : List Frame} {stack : Stack}

/-- A stack stands on frames from before a line: those it keeps of them lie at its bottom as they
were, and all above them has been entered on the line. -/
def Stands (before : List Frame) (stack : Stack) : Prop :=
  ∃ entered kept, stack.frames = entered ++ kept ∧ kept <:+ before ∧ kept ≠ [] ∧
    ∀ frame ∈ entered, frame.enteredAt.isSome

theorem Stands.push (stands : Stands before stack) {pushed : Stack}
    (frames : pushed.frames = pushed.top :: stack.frames) (entered : pushed.top.enteredAt.isSome) :
    Stands before pushed := by
  obtain ⟨above, kept, split, lower, nonempty, onLine⟩ := stands
  refine ⟨pushed.top :: above, kept, by rw [frames, split]; rfl, lower, nonempty,
    fun frame member => ?_⟩
  rcases List.mem_cons.mp member with rfl | member
  · exact entered
  · exact onLine frame member

/-- What stands before still stands when the top frame goes. -/
theorem Stands.pop (stands : Stands before stack) : Stands before stack.pop := by
  obtain ⟨top, rest⟩ := stack
  cases rest with
  | nil => exact stands
  | cons below rest =>
    obtain ⟨above, kept, split, lower, nonempty, onLine⟩ := stands
    cases above with
    | nil =>
      have split : top :: below :: rest = kept := split
      subst split
      exact ⟨[], _, rfl, (List.suffix_cons _ _).trans lower, List.cons_ne_nil _ _, by simp⟩
    | cons first above =>
      have others : below :: rest = above ++ kept := (List.cons.inj split).2
      exact ⟨above, kept, others, lower, nonempty, fun frame member =>
        onLine frame (List.mem_cons_of_mem _ member)⟩

/-- Handling an end leaves a frame that was entered on the line one. -/
theorem Stands.closing (stands : Stands before stack)
    (earlier : ∀ frame ∈ before, frame.enteredAt = none) (entered : stack.top.enteredAt.isSome) :
    Stands before stack.closing := by
  obtain ⟨top, rest⟩ := stack
  obtain ⟨above, kept, split, lower, nonempty, onLine⟩ := stands
  cases above with
  | nil =>
    have split : top :: rest = kept := split
    subst split
    rw [earlier top (lower.subset List.mem_cons_self)] at entered
    cases entered
  | cons first above =>
    have others : rest = above ++ kept := (List.cons.inj split).2
    refine ⟨(Stack.closing ⟨top, rest⟩).top :: above, kept, congrArg (_ :: ·) others, lower, nonempty,
      fun frame member => ?_⟩
    rcases List.mem_cons.mp member with rfl | member
    · exact entered
    · exact onLine frame (List.mem_cons_of_mem _ member)

/-- Handling an end and leaving its rule takes the frame at the top away. At the bottom it stays, and
as it was: the scopes of its content are those of its name. -/
theorem Stands.pop_closing (stands : Stands before stack)
    (level : ∀ bottom, [bottom] <:+ before → bottom.contentScopes = bottom.nameScopes) :
    Stands before stack.closing.pop := by
  obtain ⟨top, rest⟩ := stack
  cases rest with
  | cons below rest => exact stands.pop
  | nil =>
    have kept := stands
    obtain ⟨above, lower, split, suffix, nonempty, _⟩ := stands
    cases above with
    | cons first above =>
      have others : [] = above ++ lower := (List.cons.inj split).2
      exact absurd (List.append_eq_nil_iff.mp others.symm).2 nonempty
    | nil =>
      have split : [top] = lower := split
      subst split
      have named := level top suffix
      have same : Stack.closing ⟨top, []⟩ = ⟨top, []⟩ := by
        cases top
        cases named
        rfl
      rw [same]
      exact kept

variable (earlier : ∀ frame ∈ before, frame.enteredAt = none)
  (level : ∀ bottom, [bottom] <:+ before → bottom.contentScopes = bottom.nameScopes)

include level in
/-- What stands before a step stands after it. -/
theorem Stands.goesOn (course : Course scanner line cursor found (.next next work))
    (stands : Stands before cursor.stack) : Stands before next.stack := by
  cases course with
  | left leaves moves =>
    rw [Cursor.stack_advance]
    exact stands.pop_closing level
  | entered enters spans moves =>
    rw [Cursor.stack_advance]
    exact stands.push (enteredStack_frames ..).1 (by rw [(enteredStack_frames ..).2.2]; rfl)
  | matched enters single moves =>
    rw [Cursor.stack_advance]
    exact stands

include earlier in
theorem Stands.ends (course : Course scanner line cursor found (.done stack work))
    (stands : Stands before cursor.stack) : Stands before stack := by
  cases course with
  | finished => exact stands
  | leftInPlace leaves stays here => exact stands.closing earlier (by rw [here]; rfl)
  | enteredInPlace enters spans stays again => exact stands
  | matchedInPlace enters single stays => exact stands.pop

include earlier level in
/-- The scan of a line only enters rules above the frames from before it, and leaves rules. -/
theorem Stands.scanFrom (stands : Stands before cursor.stack) (rescan : Rescan σ)
    (expired : Nat → Bool) (steps : Nat) :
    Stands before (scanFrom scanner rescan expired line steps cursor work).stack := by
  induction steps generalizing cursor work with
  | zero => exact stands
  | succ steps ih =>
    rw [Line.scanFrom]
    split
    · exact stands
    · have course := step_course scanner rescan line cursor work
      generalize step scanner rescan line cursor work = taken at course ⊢
      cases taken with
      | next next work => exact ih (stands.goesOn level course)
      | done stack work => exact stands.ends earlier course

end Kept

end Line

namespace Tokenizer

open Line

variable {tokenizer : Tokenizer} {engine : Engine} {themes : Theme → Prop} {state : Option Stack}
  {store : Store} {theme : Theme} (reached : tokenizer.Reached engine themes state)
  (used : InUse engine tokenizer.grammar store)
  (sound : ∀ frame ∈ (tokenizer.startStack theme state).frames,
    SoundCondition engine tokenizer.grammar frame)
  (allowed : themes theme) (text : String)
include reached used sound allowed

/-- Before a line is scanned the conditions are checked, whatever lines came before it. -/
theorem Reached.checked :
    Checked engine tokenizer.grammar (lineOf text)
      (.atStart (tokenizer.startStack theme state) state.isNone)
      (tokenizer.started engine theme state text store).1 := by
  let stack := tokenizer.startStack theme state
  have twins : Work.Twins engine tokenizer.grammar [lineOf text] { finder := { store := store } }
      { finder := { store := store } } := .start used.serves used.serves Nat.zero_lt_one
  have soundBlocks : ∀ block ∈ blocksOf tokenizer.grammar stack.frames,
      SoundCondition engine tokenizer.grammar block.1.top := by
    intro block member
    have has := List.mem_map_of_mem (f := fun block => block.1.top) member
    rw [map_top_blocksOf, CompiledGrammar.conditioned, List.mem_reverse] at has
    exact sound _ (List.mem_filter.mp has).1
  have cases := checkAll_cases (tokenizer.styling theme) tokenizer.depth soundBlocks twins
    (.atStart stack state.isNone)
  rw [map_top_blocksOf] at cases
  rcases cases with all | ⟨outer, block, inner, passed, split, held, fails, same⟩
  · exact .held all
  · obtain ⟨standing, below, isBlock⟩ := blocksOf_split split
    have has : tokenizer.grammar.hasCondition block.1.top = true := by
      simp [CompiledGrammar.hasCondition, isBlock]
    obtain ⟨⟨top, rest⟩, rule⟩ := block
    cases rest with
    | nil =>
      -- The frame at the bottom has the rule of the top level, which has no condition.
      obtain ⟨first, _, _, piled⟩ := reached.piled allowed
      obtain ⟨group, root⟩ := used.root
      cases piled.eq_of_suffix standing
      cases root.symm.trans isBlock
    | cons lower rest =>
      rw [← below, map_top_blocksOf] at held
      have standing : top :: Stack.frames ⟨lower, rest⟩ <:+ stack.frames := standing
      exact same ▸ .left standing has held fails

/-- When a line is over, frames entered on it stand above frames that the check has left. -/
theorem Reached.stands (clock : Clock) :
    Stands (tokenizer.started engine theme state text store).1.stack.frames
      (tokenizer.outcome engine theme state text clock store).stack := by
  let left := (tokenizer.started engine theme state text store).1.stack
  have below : left.frames <:+ (tokenizer.startStack theme state).frames :=
    (reached.checked used sound allowed text).suffix
  have earlier (frame : Frame) (member : frame ∈ left.frames) : frame.enteredAt = none :=
    (Stack.of_forgetLine (tokenizer.startStack_forgetLine theme state) (below.subset member)).1
  have level (bottom : Frame) (last : [bottom] <:+ left.frames) :
      bottom.contentScopes = bottom.nameScopes := by
    obtain ⟨first, _, _, piled⟩ := reached.piled allowed
    rw [piled.eq_of_suffix (last.trans below)]
    rfl
  have start : Stands left.frames left :=
    ⟨[], _, rfl, List.suffix_refl _, List.cons_ne_nil _ _, by simp⟩
  exact start.scanFrom earlier level _ _ _

end Tokenizer

/-- The conditions of rules entered on earlier lines, for every compiled grammar, every line and every
state that lines before it have left, if the conditions of its frames are sound. The check of conditions
goes through the frames with conditions from the outermost, and seeks the condition of each from the end
of the match before. If all hold it gives back the state it has been given, and only then; otherwise the
frame below the outermost whose condition does not hold. It never goes back, and leaves nothing behind
that has not been produced.

When the line is over, frames entered on it stand above frames that were there before it, which are as
they were; and the conditions of these have held in turn, so that each has matched on the line. -/
theorem conditions_hold_in_turn (tokenizer : Tokenizer) {engine : Engine} {themes : Theme → Prop}
    {state : Option Stack} (reached : tokenizer.Reached engine themes state) {store : Store}
    (used : InUse engine tokenizer.grammar store) {theme : Theme}
    (sound : ∀ frame ∈ (tokenizer.startStack theme state).frames,
      Line.SoundCondition engine tokenizer.grammar frame)
    (allowed : themes theme) (text : String) (clock : Clock) :
    let grammar := tokenizer.grammar
    let line := Tokenizer.lineOf text
    let stack := tokenizer.startStack theme state
    let start := Line.Cursor.atStart stack state.isNone
    let checked := tokenizer.started engine theme state text store
    let ended := (tokenizer.outcome engine theme state text clock store).stack
    (∀ before, state = some before → stack = before) ∧
      Line.Checked engine grammar line start checked.1 ∧
      (checked.1.stack = stack ↔
        ∃ last, Line.HoldInTurn engine grammar line start (grammar.conditioned stack.frames) last) ∧
      start.pos ≤ checked.1.pos ∧ checked.1.pos ≤ checked.2.pieces.reached ∧
      ∃ entered kept, ended.frames = entered ++ kept ∧
        (tokenizer.scanLine engine theme state text clock store).1.state.frames =
          entered.map Stack.forgetFrame ++ kept ∧
        (∀ frame ∈ entered, frame.enteredAt.isSome) ∧
        kept <:+ checked.1.stack.frames ∧ kept <:+ stack.frames ∧
        (∃ last, Line.HoldInTurn engine grammar line start (grammar.conditioned kept) last) ∧
        ∀ frame ∈ kept, frame.enteredAt = none ∧ (grammar.hasCondition frame = true →
          ∃ before found, Line.conditionFrom engine grammar line before frame = some found ∧
            start.pos ≤ found.start ∧ found.stop ≤ line.byteSize) := by
  intro grammar line stack start checked ended
  have result : Line.Checked engine grammar line start checked.1 :=
    reached.checked used sound allowed text
  obtain ⟨entered, kept, split, lower, _, onLine⟩ :=
    reached.stands used sound allowed text clock
  have before : kept <:+ stack.frames := lower.trans result.suffix
  have forgotten : stack.forgetLine = stack := tokenizer.startStack_forgetLine theme state
  obtain ⟨_, stays⟩ := result.stays
  obtain ⟨last, turns⟩ := stays.of_suffix lower
  refine ⟨?_, result, result.stack_eq_iff, result.pos_le,
    Line.checkAll_reached _ _ _ _ start (Nat.le_refl 0), entered, kept, split, ?_, onLine, lower,
    before, ⟨last, turns⟩, fun frame member => ⟨?_, fun has => ?_⟩⟩
  · rintro before rfl
    exact reached.forgetLine_eq
  · have same : kept.map Stack.forgetFrame = kept :=
      (List.map_congr_left fun frame member => Stack.forgetFrame_eq forgotten
        (before.subset member)).trans (List.map_id kept)
    calc (tokenizer.scanLine engine theme state text clock store).1.state.frames
        = ended.frames.map Stack.forgetFrame := rfl
      _ = entered.map Stack.forgetFrame ++ kept := by rw [split, List.map_append, same]
  · exact (Stack.of_forgetLine forgotten (before.subset member)).1
  · have among : frame ∈ grammar.conditioned kept :=
      List.mem_reverse.mpr (List.mem_filter.mpr ⟨member, has⟩)
    obtain ⟨cursor, found, ahead, starts, holds⟩ := turns.matched among
    exact ⟨cursor, found, holds, Nat.le_trans ahead starts,
      ((sound frame (before.subset member)).bounds holds).2.2⟩

namespace Quotes

/-- A grammar with a rule that has a condition, and inside it another. -/
def source : GrammarSource where
  scopeName := "source.q"
  patterns := [1]
  rules := #[{ beginPattern := some "=", whilePattern := some "=", name := some "list" },
    { beginPattern := some ">", whilePattern := some ">", patterns := some [0]
      name := some "quote" }]

@[irreducible]
def compilation : Compilation :=
  (compile "source.q" ⟨[("source.q", source)]⟩ [] backtracking {}).1.toOption.get (by decide +kernel)

def tokenizer : Tokenizer := { serial := 0, rulesSerial := 1, grammar := compilation.grammar }

/-- The store of the grammar before the first line. -/
def store : Store := { patterns := compilation.patterns }

theorem compiles :
    (compile "source.q" ⟨[("source.q", source)]⟩ [] backtracking {}).1.toOption =
      some compilation := by
  rw [compilation, Option.some_get]

theorem inUse : InUse backtracking tokenizer.grammar store := .of_toOption compiles

/-- The state after a line that enters both rules. -/
def nested : Stack :=
  (tokenizer.scanLine backtracking .plain none ">=" (fun _ => false) store).1.state

theorem reached : tokenizer.Reached backtracking (fun _ => True) (some nested) :=
  .line trivial inUse .start ">=" _

theorem sound : ∀ frame ∈ (tokenizer.startStack .plain (some nested)).frames,
    Line.SoundCondition backtracking tokenizer.grammar frame := by
  have patterns : ∀ frame ∈ (tokenizer.startStack .plain (some nested)).frames,
      ∀ contender ∈ Line.conditionOf tokenizer.grammar frame,
        contender.pattern = { source := ">" } ∨ contender.pattern = { source := "=" } := by
    decide +kernel
  intro frame member contender held flavour
  rcases patterns frame member contender held with pattern | pattern <;>
    exact .of_spelled readsText_backtracking pattern (by decide) flavour

end Quotes

/-- A line on which the outer of two conditions holds and the inner does not. -/
theorem conditions_hold_in_turn_quotes :
    let grammar := Quotes.tokenizer.grammar
    let stack := Quotes.tokenizer.startStack .plain (some Quotes.nested)
    let start := Line.Cursor.atStart stack false
    let checked := Quotes.tokenizer.started backtracking .plain (some Quotes.nested) ">" Quotes.store
    let HoldInTurn := Line.HoldInTurn backtracking grammar (Tokenizer.lineOf ">") start
    Quotes.tokenizer.Reached backtracking (fun _ => True) (some Quotes.nested) ∧
      InUse backtracking grammar Quotes.store ∧
      (∀ frame ∈ stack.frames, Line.SoundCondition backtracking grammar frame) ∧
      (stack.frames.map grammar.hasCondition = [true, true, false]) ∧
      checked.1.stack.frames = stack.frames.tail ∧ checked.1.pos = 1 ∧
      Line.Checked backtracking grammar (Tokenizer.lineOf ">") start checked.1 ∧
      (¬∃ last, HoldInTurn (grammar.conditioned stack.frames) last) ∧
      ∃ last, HoldInTurn (grammar.conditioned stack.frames.tail) last := by
  intro grammar stack start checked HoldInTurn
  obtain ⟨_, result, same, _⟩ := conditions_hold_in_turn Quotes.tokenizer Quotes.reached Quotes.inUse
    Quotes.sound trivial ">" fun _ => false
  have frames : checked.1.stack.frames = stack.frames.tail := by decide +kernel
  have two : stack.frames.map grammar.hasCondition = [true, true, false] := by decide +kernel
  refine ⟨Quotes.reached, Quotes.inUse, Quotes.sound, two, frames, by decide +kernel, result, ?_, ?_⟩
  · intro all
    have whole : checked.1.stack = stack := same.mpr all
    have shorter := congrArg List.length (frames.symm.trans (congrArg Stack.frames whole))
    simp [Stack.frames] at shorter
  · exact frames ▸ result.stays

namespace ShiftedCondition

/-- A grammar with a rule inside itself, whose condition matches behind the `a` that it needs. -/
def source : GrammarSource where
  scopeName := "source.x"
  patterns := [1]
  rules := #[{ reference := some "$self" },
    { beginPattern := some ">", whilePattern := some "a\\K", patterns := some [0]
      name := some "quote" }]

@[irreducible]
def compilation : Compilation :=
  (compile "source.x" ⟨[("source.x", source)]⟩ [] backtracking {}).1.toOption.get (by decide +kernel)

def tokenizer : Tokenizer := { serial := 0, rulesSerial := 1, grammar := compilation.grammar }

/-- The store of the grammar before the first line. -/
def store : Store := { patterns := compilation.patterns }

theorem compiles :
    (compile "source.x" ⟨[("source.x", source)]⟩ [] backtracking {}).1.toOption =
      some compilation := by
  rw [compilation, Option.some_get]

theorem inUse : InUse backtracking tokenizer.grammar store := .of_toOption compiles

/-- The state after a line that enters the rule three times. -/
def nested : Stack :=
  (tokenizer.scanLine backtracking .plain none ">>>" (fun _ => false) store).1.state

theorem reached : tokenizer.Reached backtracking (fun _ => True) (some nested) :=
  .line trivial inUse .start ">>>" _

end ShiftedCondition

/-- A condition that matches behind what it needs is remembered for the frames above. On the line `aa`
the conditions of two frames match, one `a` for each. For that of the third nothing is left, but it takes
the match of the second, so that all three frames stay. -/
theorem shifted_condition_is_remembered :
    let grammar := ShiftedCondition.tokenizer.grammar
    let stack := ShiftedCondition.tokenizer.startStack .plain (some ShiftedCondition.nested)
    let start := Line.Cursor.atStart stack false
    let checked := ShiftedCondition.tokenizer.started backtracking .plain
      (some ShiftedCondition.nested) "aa" ShiftedCondition.store
    let HoldInTurn := Line.HoldInTurn backtracking grammar (Tokenizer.lineOf "aa") start
    ShiftedCondition.tokenizer.Reached backtracking (fun _ => True) (some ShiftedCondition.nested) ∧
      InUse backtracking grammar ShiftedCondition.store ∧
      stack.frames.map grammar.hasCondition = [true, true, true, false] ∧
      checked.1.stack.frames = stack.frames ∧
      (ShiftedCondition.tokenizer.scanLine backtracking .plain (some ShiftedCondition.nested) "aa"
        (fun _ => false) ShiftedCondition.store).1.state.depth = 4 ∧
      (∃ last, HoldInTurn (grammar.conditioned stack.frames.tail) last) ∧
      ¬∃ last, HoldInTurn (grammar.conditioned stack.frames) last := by
  intro grammar stack start checked HoldInTurn
  have two : (Line.turns? backtracking grammar (Tokenizer.lineOf "aa") start
      (grammar.conditioned stack.frames.tail)).isSome = true := by decide +kernel
  have three : (Line.turns? backtracking grammar (Tokenizer.lineOf "aa") start
      (grammar.conditioned stack.frames)).isSome = false := by decide +kernel
  refine ⟨ShiftedCondition.reached, ShiftedCondition.inUse, by decide +kernel, by decide +kernel,
    by decide +kernel, ?_, ?_⟩
  · obtain ⟨last, leads⟩ := Option.isSome_iff_exists.mp two
    exact ⟨last, Line.holdInTurn_iff.mpr leads⟩
  · rintro ⟨last, turns⟩
    rw [Line.holdInTurn_iff.mp turns] at three
    cases three

end ScopeLexer

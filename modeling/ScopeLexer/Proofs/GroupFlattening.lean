import Mathlib.Data.List.Forall2
import ScopeLexer.Proofs.CompilerLockstep

/-! The rules tried inside a rule. A walk over rules enters each group once, so the depth that
it is given is enough, and what it finds does not depend on the depth. Walks over rules of
two grammars that go together find rules that go together. So in a grammar whose rules have
other numbers a walk finds the same rules, under these numbers; and it does so also inside a
group that has been put into another. -/
namespace ScopeLexer

/-- Whether a rule only holds others. -/
def Grammar.Rule.isGroup : Grammar.Rule → Bool
  | .group _ => true
  | .single _ | .region _ | .block _ | .capture _ | .reserved => false

namespace CompiledGrammar

open Grammar

variable {left right grammar : CompiledGrammar} {walk other : Flattening} {depth otherDepth : Nat}

/-- A walk comes by a rule: it is noted, or entered. -/
def flattenOne (grammar : CompiledGrammar) (depth : Nat) (walk : Flattening) (id : RuleId) :
    Flattening :=
  match grammar.rule id with
  | .single _ | .region _ | .block _ => { walk with found := id :: walk.found }
  | .group rule =>
    if walk.entered.contains id then walk
    else flatten grammar depth rule.patterns { walk with entered := id :: walk.entered }
  | .capture _ | .reserved => walk

theorem flatten_succ (grammar : CompiledGrammar) (depth : Nat) (ids : List RuleId)
    (walk : Flattening) :
    grammar.flatten (depth + 1) ids walk = ids.foldl (grammar.flattenOne depth) walk := rfl

theorem lt_size_of_group {id : RuleId} {rule : GroupRule} (group : grammar.rule id = .group rule) :
    id < grammar.rules.size := by
  unfold CompiledGrammar.rule at group
  by_cases bound : id < grammar.rules.size
  · exact bound
  · rw [Array.getElem?_eq_none (Nat.le_of_not_lt bound), Option.getD_none] at group
    cases group

/-- What a walk keeps when it notes a rule that is entered by a pattern, and when it enters a
group, it keeps as a whole. -/
theorem flatten_keeps {Holds : Flattening → Prop}
    (notes : ∀ walk id, (grammar.rule id).entryPattern.isSome → Holds walk →
      Holds { walk with found := id :: walk.found })
    (enters : ∀ walk id, Holds walk → Holds { walk with entered := id :: walk.entered })
    (depth : Nat) (ids : List RuleId) (holds : Holds walk) :
    Holds (grammar.flatten depth ids walk) := by
  induction depth generalizing ids walk with
  | zero => exact holds
  | succ depth ih =>
    rw [flatten_succ]
    induction ids generalizing walk with
    | nil => exact holds
    | cons id ids rest =>
      apply rest
      unfold flattenOne
      cases rule : grammar.rule id with
      | single | region | block =>
        apply notes walk id _ holds
        rw [rule]
        rfl
      | group =>
        simp only
        split
        · exact holds
        · exact ih _ (enters walk id holds)
      | capture | reserved => exact holds

section Entering

/-- Groups that have been entered stay entered. -/
theorem flatten_entered (grammar : CompiledGrammar) (depth : Nat) (ids : List RuleId)
    (walk : Flattening) : walk.entered ⊆ (grammar.flatten depth ids walk).entered :=
  flatten_keeps (fun _ _ _ kept => kept) (fun _ _ kept => List.subset_cons_of_subset _ kept)
    depth ids (List.Subset.refl _)

theorem flattenOne_entered (grammar : CompiledGrammar) (depth : Nat) (walk : Flattening)
    (id : RuleId) : walk.entered ⊆ (grammar.flattenOne depth walk id).entered :=
  grammar.flatten_entered (depth + 1) [id] walk

/-- How many rules of a grammar a walk has not entered. -/
def unentered (grammar : CompiledGrammar) (walk : Flattening) : Nat :=
  (List.range grammar.rules.size).countP fun id => !walk.entered.contains id

theorem unentered_le_size (grammar : CompiledGrammar) (walk : Flattening) :
    grammar.unentered walk ≤ grammar.rules.size :=
  Nat.le_trans List.countP_le_length (Nat.le_of_eq List.length_range)

theorem unentered_mono (grammar : CompiledGrammar) (entered : walk.entered ⊆ other.entered) :
    grammar.unentered other ≤ grammar.unentered walk := by
  apply List.countP_mono_left
  intro id _ new
  simp only [Bool.not_eq_true', List.contains_eq_mem, decide_eq_false_iff_not] at new ⊢
  exact fun old => new (entered old)

/-- Entering a group leaves fewer. -/
theorem unentered_lt (walk : Flattening) {id : RuleId} (bound : id < grammar.rules.size)
    (new : walk.entered.contains id = false) :
    grammar.unentered { walk with entered := id :: walk.entered } < grammar.unentered walk := by
  refine countP_lt_countP (fun other unseen => ?_) (List.mem_range.mpr bound) ?_ ?_
  · simp only [List.contains_cons, Bool.not_or, Bool.and_eq_true] at unseen
    exact unseen.2
  · simp
  · rw [new, Bool.not_false]

end Entering

section Joining

variable {Goes : RuleId → RuleId → Prop}

/-- Rules of two grammars that go together: none goes with two others, a walk does the same
with both, and what they hold goes together in its order. -/
structure Joined (left right : CompiledGrammar) (Goes : RuleId → RuleId → Prop) : Prop where
  unique : ∀ id held other moved, Goes id other → Goes held moved → (id = held ↔ other = moved)
  noted : ∀ id other, Goes id other →
    (right.rule other).entryPattern.isSome = (left.rule id).entryPattern.isSome
  entered : ∀ id other, Goes id other → (right.rule other).isGroup = (left.rule id).isGroup
  inner : ∀ id other, Goes id other →
    List.Forall₂ Goes (left.rule id).patterns (right.rule other).patterns

/-- Walks that have found and entered rules that go together. -/
structure Abreast (Goes : RuleId → RuleId → Prop) (walk other : Flattening) : Prop where
  found : List.Forall₂ Goes walk.found other.found
  entered : ∀ id moved, Goes id moved → other.entered.contains moved = walk.entered.contains id

/-- One rule of the walk: it is a candidate, or a group entered for the first time, or passed
over. -/
theorem flattenOne_eq (grammar : CompiledGrammar) (depth : Nat) (walk : Flattening) (id : RuleId) :
    grammar.flattenOne depth walk id =
      if (grammar.rule id).entryPattern.isSome then { walk with found := id :: walk.found }
      else if (grammar.rule id).isGroup && !walk.entered.contains id then
        grammar.flatten depth (grammar.rule id).patterns { walk with entered := id :: walk.entered }
      else walk := by
  unfold flattenOne
  cases grammar.rule id with
  | single | region | block => rfl
  | capture | reserved => rfl
  | group rule =>
    simp only [Rule.entryPattern, Rule.isGroup, Rule.patterns, Option.isSome_none,
      Bool.false_eq_true, if_false, Bool.true_and]
    cases walk.entered.contains id <;> rfl

theorem lt_size_of_isGroup {id : RuleId} (group : (grammar.rule id).isGroup = true) :
    id < grammar.rules.size := by
  cases held : grammar.rule id with
  | group rule => exact lt_size_of_group held
  | single | region | block | capture | reserved =>
    rw [held] at group
    cases group

namespace Joined

variable (joined : Joined left right Goes)
include joined

theorem enter {id moved : RuleId} (goes : Goes id moved) (abreast : Abreast Goes walk other) :
    Abreast Goes { walk with entered := id :: walk.entered }
      { other with entered := moved :: other.entered } where
  found := abreast.found
  entered asked held also := by
    have same : (held == moved) = (asked == id) := by
      apply Bool.eq_iff_iff.mpr
      rw [beq_iff_eq, beq_iff_eq]
      exact (joined.unique _ _ _ _ also goes).symm
    rw [List.contains_cons, List.contains_cons, abreast.entered asked held also, same]

/-- Walks over the rules in a rule start abreast. -/
theorem abreast_start {id moved : RuleId} (goes : Goes id moved) :
    Abreast Goes { entered := [id] } { entered := [moved] } := by
  have nothing : Abreast Goes { entered := [] } { entered := [] } := ⟨.nil, fun _ _ _ => rfl⟩
  exact joined.enter goes nothing

/-- One rule is walked over abreast, if lists are wherever less is left to enter. -/
theorem flattenOne_abreast {id moved : RuleId} (goes : Goes id moved)
    (recursive : ∀ {ids others walk other}, left.unentered walk < depth →
      right.unentered other < otherDepth → List.Forall₂ Goes ids others →
      Abreast Goes walk other →
      Abreast Goes (left.flatten depth ids walk) (right.flatten otherDepth others other))
    (enough : left.unentered walk ≤ depth) (otherEnough : right.unentered other ≤ otherDepth)
    (abreast : Abreast Goes walk other) :
    Abreast Goes (left.flattenOne depth walk id) (right.flattenOne otherDepth other moved) := by
  rw [flattenOne_eq, flattenOne_eq, joined.noted id moved goes, joined.entered id moved goes,
    abreast.entered id moved goes]
  split
  · exact ⟨.cons goes abreast.found, abreast.entered⟩
  · split
    next entering =>
      obtain ⟨group, new⟩ := (Bool.and_eq_true _ _).mp entering
      have new : walk.entered.contains id = false := by simpa using new
      have less := unentered_lt walk (lt_size_of_isGroup group) new
      have otherLess := unentered_lt other
        (lt_size_of_isGroup ((joined.entered id moved goes).trans group))
        ((abreast.entered id moved goes).trans new)
      exact recursive (Nat.lt_of_lt_of_le less enough) (Nat.lt_of_lt_of_le otherLess otherEnough)
        (joined.inner id moved goes) (joined.enter goes abreast)
    next => exact abreast

/-- With enough depth, walks over rules that go together stay abreast. -/
theorem flatten_abreast {ids others : List RuleId} (enough : left.unentered walk < depth)
    (otherEnough : right.unentered other < otherDepth) (goes : List.Forall₂ Goes ids others)
    (abreast : Abreast Goes walk other) :
    Abreast Goes (left.flatten depth ids walk) (right.flatten otherDepth others other) := by
  induction depth generalizing otherDepth ids others walk other with
  | zero => cases enough
  | succ depth ih =>
    obtain ⟨otherDepth, rfl⟩ := Nat.exists_eq_succ_of_ne_zero (Nat.ne_zero_of_lt otherEnough)
    rw [flatten_succ, flatten_succ]
    induction goes generalizing walk other with
    | nil => exact abreast
    | @cons id moved ids others goes _ rest =>
      rw [List.foldl_cons, List.foldl_cons]
      have one := joined.flattenOne_abreast goes ih
        (Nat.le_of_lt_succ enough) (Nat.le_of_lt_succ otherEnough) abreast
      have less := left.unentered_mono (left.flattenOne_entered depth walk id)
      have otherLess := right.unentered_mono (right.flattenOne_entered otherDepth other moved)
      exact rest (Nat.lt_of_le_of_lt less enough) one (Nat.lt_of_le_of_lt otherLess otherEnough)

/-- The rules tried inside rules that go together go together. -/
theorem candidates {id moved : RuleId} (goes : Goes id moved) (bound : id < left.rules.size)
    (otherBound : moved < right.rules.size) :
    List.Forall₂ Goes (left.candidates id) (right.candidates moved) := by
  unfold CompiledGrammar.candidates
  rw [if_pos bound, if_pos otherBound, List.forall₂_reverse_iff]
  exact (joined.flatten_abreast (Nat.lt_succ_of_le (unentered_le_size ..))
    (Nat.lt_succ_of_le (unentered_le_size ..)) (joined.inner id moved goes)
    (joined.abreast_start goes)).found

end Joined
end Joining

/-- Rules of one grammar that are those of another, under other numbers, and name only such
rules. -/
structure Carries (left right : CompiledGrammar) (change : RuleId → RuleId)
    (Shown : RuleId → Prop) : Prop where
  injective : ∀ id other, change id = change other → id = other
  bounds : ∀ id, change id < right.rules.size ↔ id < left.rules.size
  rule : ∀ id, Shown id → right.rule (change id) = (left.rule id).mapIds change
  inner : ∀ id held, Shown id → held ∈ (left.rule id).patterns → Shown held

namespace Carries

variable {change : RuleId → RuleId} {Shown : RuleId → Prop}

/-- A rule goes with the one under its other number. -/
def Moves (change : RuleId → RuleId) (Shown : RuleId → Prop) (id moved : RuleId) : Prop :=
  Shown id ∧ moved = change id

theorem moves_map {ids : List RuleId} (shown : ∀ id ∈ ids, Shown id) :
    List.Forall₂ (Moves change Shown) ids (ids.map change) := by
  induction ids with
  | nil => exact .nil
  | cons id ids ih =>
    obtain ⟨first, rest⟩ := List.forall_mem_cons.mp shown
    exact .cons ⟨first, rfl⟩ (ih rest)

theorem eq_map_of_moves {ids others : List RuleId}
    (moves : List.Forall₂ (Moves change Shown) ids others) : others = ids.map change := by
  induction moves with
  | nil => rfl
  | cons first _ ih => rw [List.map_cons, ← ih, first.2]

theorem patterns_mapIds (change : RuleId → RuleId) (rule : Rule) :
    (rule.mapIds change).patterns = rule.patterns.map change := by
  cases rule <;> rfl

variable (carries : Carries left right change Shown)
include carries

/-- The change of numbers joins the two grammars. -/
theorem joined : Joined left right (Moves change Shown) where
  unique := by
    rintro id held _ _ ⟨_, rfl⟩ ⟨_, rfl⟩
    exact ⟨congrArg change, carries.injective _ _⟩
  noted := by
    rintro id _ ⟨shown, rfl⟩
    rw [carries.rule id shown]
    cases left.rule id <;> rfl
  entered := by
    rintro id _ ⟨shown, rfl⟩
    rw [carries.rule id shown]
    cases left.rule id <;> rfl
  inner := by
    rintro id _ ⟨shown, rfl⟩
    rw [carries.rule id shown, patterns_mapIds]
    exact moves_map (carries.inner id · shown)

/-- The rules tried inside a rule are the same, under the other numbers. -/
theorem candidates {id : RuleId} (shown : Shown id) :
    right.candidates (change id) = (left.candidates id).map change := by
  by_cases bound : id < left.rules.size
  · exact eq_map_of_moves
      (carries.joined.candidates ⟨shown, rfl⟩ bound ((carries.bounds id).mpr bound))
  · unfold CompiledGrammar.candidates
    rw [if_neg bound, if_neg fun above => bound ((carries.bounds id).mp above), List.map_nil]

/-- The rules tried inside a group are the same after it has been put into another, unless that
is without rules because this one is. -/
theorem candidates_wrapped {id extra : RuleId} {inside outside moved : GroupRule}
    (group : left.rule id = .group inside) (shown : ∀ held ∈ inside.patterns, Shown held)
    (wrapper : right.rule (change id) = .group outside) (apart : ∀ id, change id ≠ extra)
    (wrapped : right.rule extra = .group moved)
    (same : moved.patterns = inside.patterns.map change)
    (holds : outside.patterns = [extra] ∨ outside.patterns = [] ∧ inside.patterns = []) :
    right.candidates (change id) = (left.candidates id).map change := by
  have bound := lt_size_of_group group
  unfold CompiledGrammar.candidates
  rw [if_pos bound, if_pos ((carries.bounds id).mpr bound), group, wrapper]
  rcases holds with one | ⟨none, empty⟩
  · have new : [change id].contains extra = false := by simp [Ne.symm (apart id)]
    have entered : right.flatten (right.rules.size + 1) [extra] { entered := [change id] } =
        right.flatten right.rules.size (inside.patterns.map change)
          { entered := [extra, change id] } := by
      rw [flatten_succ, List.foldl_cons, List.foldl_nil, flattenOne, wrapped]
      simp only [new, same, Bool.false_eq_true, if_false]
    have abreast : Abreast (Moves change Shown) { entered := [id] }
        { entered := [extra, change id] } := by
      refine ⟨.nil, ?_⟩
      rintro asked _ ⟨_, rfl⟩
      have same : (change asked == change id) = (asked == id) := by
        apply Bool.eq_iff_iff.mpr
        rw [beq_iff_eq, beq_iff_eq]
        exact ⟨carries.injective _ _, congrArg change⟩
      rw [List.contains_cons, beq_false_of_ne (apart asked), Bool.false_or, List.contains_cons,
        List.contains_cons, same]
      rfl
    have less := unentered_lt { entered := [change id] } (lt_size_of_group wrapped) new
    have found := eq_map_of_moves (carries.joined.flatten_abreast
      (Nat.lt_succ_of_le (unentered_le_size ..)) (Nat.lt_of_lt_of_le less (unentered_le_size ..))
      (moves_map shown) abreast).found
    simp only [Rule.patterns, one, entered, found, List.map_reverse]
  · simp only [Rule.patterns, none, empty, flatten_succ, List.foldl_nil, List.map_reverse,
      List.map_nil]

end Carries
end CompiledGrammar
end ScopeLexer

import ScopeLexer.Proofs.GroupFlattening
import ScopeLexer.Proofs.MemoTransparency

/-!
What is tried inside a rule, in full. The walk that replaces groups by what they hold ends, and it finds
every rule that can be come to through groups and is entered by a pattern, also where groups hold each
other. Where none holds itself, groups can be written out at every place where they are named. The walk
enters each only once, so its list is shorter; but whatever a place left out would have added stands in
the list before. The first of all copies of a rule are therefore the same, and the others match nothing
that is better.
-/
namespace ScopeLexer

open Grammar Regex

namespace CompiledGrammar

section Walks

variable (grammar : CompiledGrammar)

/-- A rule can be come to: it is among some rules, or among those in a group that can be come to. -/
inductive ComesTo : List RuleId → RuleId → Prop where
  | here {id : RuleId} (member : id ∈ ids) : ComesTo ids id
  | inside {id : RuleId} (member : outer ∈ ids) (group : (grammar.rule outer).isGroup)
      (below : ComesTo (grammar.rule outer).patterns id) : ComesTo ids id

/-- What a walk over rules comes to, however deep groups lie in groups. -/
inductive Flattens : List RuleId → Flattening → Flattening → Prop where
  | done : Flattens [] walk walk
  | noted {id : RuleId} (fits : (grammar.rule id).entryPattern.isSome)
      (rest : Flattens ids { walk with found := id :: walk.found } after) :
      Flattens (id :: ids) walk after
  | entered {id : RuleId} (group : (grammar.rule id).isGroup) (new : id ∉ walk.entered)
      (inside : Flattens (grammar.rule id).patterns { walk with entered := id :: walk.entered } middle)
      (rest : Flattens ids middle after) : Flattens (id :: ids) walk after
  | again {id : RuleId} (group : (grammar.rule id).isGroup) (old : id ∈ walk.entered)
      (rest : Flattens ids walk after) : Flattens (id :: ids) walk after
  | skipped {id : RuleId} (plain : (grammar.rule id).entryPattern.isSome = false)
      (single : (grammar.rule id).isGroup = false) (rest : Flattens ids walk after) :
      Flattens (id :: ids) walk after

/-- Rules with every group among them written out, and the groups in it, and so on. -/
inductive Expands : List RuleId → List RuleId → Prop where
  | done : Expands [] []
  | noted {id : RuleId} (fits : (grammar.rule id).entryPattern.isSome) (rest : Expands ids out) :
      Expands (id :: ids) (id :: out)
  | entered {id : RuleId} {inner : List RuleId} (group : (grammar.rule id).isGroup)
      (inside : Expands (grammar.rule id).patterns inner) (rest : Expands ids out) :
      Expands (id :: ids) (inner ++ out)
  | skipped {id : RuleId} (plain : (grammar.rule id).entryPattern.isSome = false)
      (single : (grammar.rule id).isGroup = false) (rest : Expands ids out) : Expands (id :: ids) out

/-- A rule holds a group. -/
def HoldsGroup (outer inner : RuleId) : Prop :=
  inner ∈ (grammar.rule outer).patterns ∧ (grammar.rule inner).isGroup

/-- No group that can be come to from a rule holds itself, at whatever depth. -/
def AcyclicBelow (id : RuleId) : Prop :=
  ∀ inner, grammar.ComesTo (grammar.rule id).patterns inner →
    ¬ Relation.TransGen grammar.HoldsGroup inner inner

variable {ids : List RuleId} {walk middle after : Flattening}

/-- Groups are not entered by a pattern. -/
theorem not_isGroup_of_fits {rule : Rule} (fits : rule.entryPattern.isSome) : ¬ rule.isGroup := by
  cases rule with
  | single | region | block => exact Bool.false_ne_true
  | group | capture | reserved => cases fits

/-- A walk that has depth enough for all groups ends, and its depth plays no part. -/
theorem flattens_flatten (enough : grammar.unentered walk < depth) :
    grammar.Flattens ids walk (grammar.flatten depth ids walk) := by
  induction depth generalizing ids walk with
  | zero => cases enough
  | succ depth ih =>
    rw [flatten_succ]
    induction ids generalizing walk with
    | nil => exact .done
    | cons id ids rest =>
      have less := grammar.unentered_mono (grammar.flattenOne_entered depth walk id)
      have rest := rest (Nat.lt_of_le_of_lt less enough)
      rw [List.foldl_cons]
      rw [flattenOne_eq] at rest ⊢
      by_cases fits : (grammar.rule id).entryPattern.isSome = true
      · rw [if_pos fits] at rest ⊢
        exact .noted fits rest
      · rw [if_neg fits] at rest ⊢
        cases group : (grammar.rule id).isGroup with
        | false =>
          rw [group] at rest
          exact .skipped (by simpa using fits) group rest
        | true =>
          by_cases old : id ∈ walk.entered
          · simp only [group, List.contains_eq_mem, old, decide_true, Bool.not_true,
              Bool.and_false, Bool.false_eq_true, if_false] at rest ⊢
            exact .again group old rest
          · simp only [group, List.contains_eq_mem, old, decide_false, Bool.not_false,
              Bool.and_true, if_true] at rest ⊢
            refine .entered group old (ih ?_) rest
            exact Nat.lt_of_lt_of_le
              (unentered_lt walk (lt_size_of_isGroup group) (by simpa using old))
              (Nat.le_of_lt_succ enough)

theorem flattens_candidates (id : RuleId) : ∃ after,
    grammar.Flattens (grammar.rule id).patterns { entered := [id] } after ∧
      grammar.candidates id = after.found.reverse := by
  unfold candidates
  by_cases bound : id < grammar.rules.size
  · rw [if_pos bound]
    exact ⟨_, grammar.flattens_flatten (Nat.lt_succ_of_le (unentered_le_size ..)), rfl⟩
  · have outside : grammar.rule id = .reserved := by
      rw [CompiledGrammar.rule, Array.getElem?_eq_none (Nat.le_of_not_lt bound), Option.getD_none]
    rw [if_neg bound, outside]
    exact ⟨_, .done, rfl⟩

end Walks

section Reached

variable {grammar : CompiledGrammar} {ids others : List RuleId} {id : RuleId}
  {walk middle after : Flattening}

theorem ComesTo.mono (comes : grammar.ComesTo ids id) (more : ids ⊆ others) :
    grammar.ComesTo others id := by
  cases comes with
  | here member => exact .here (more member)
  | inside member group below => exact .inside (more member) group below

/-- What a walk has noted and entered stays so. -/
structure Flattening.Grows (walk after : Flattening) : Prop where
  found : walk.found ⊆ after.found
  entered : walk.entered ⊆ after.entered

theorem Flattening.Grows.trans (first : walk.Grows middle) (second : middle.Grows after) :
    walk.Grows after :=
  ⟨List.Subset.trans first.found second.found, List.Subset.trans first.entered second.entered⟩

theorem Flattening.grows_note (walk : Flattening) (id : RuleId) :
    walk.Grows { walk with found := id :: walk.found } :=
  ⟨List.subset_cons_self .., List.Subset.refl _⟩

theorem Flattening.grows_enter (walk : Flattening) (id : RuleId) :
    walk.Grows { walk with entered := id :: walk.entered } :=
  ⟨List.Subset.refl _, List.subset_cons_self ..⟩

theorem Flattens.grows (flattens : grammar.Flattens ids walk after) : walk.Grows after := by
  induction flattens with
  | done => exact ⟨List.Subset.refl _, List.Subset.refl _⟩
  | noted _ _ ih => exact (Flattening.grows_note ..).trans ih
  | entered _ _ _ _ inner ih => exact ((Flattening.grows_enter ..).trans inner).trans ih
  | again _ _ _ ih => exact ih
  | skipped _ _ _ ih => exact ih

/-- A walk ends in one way only. -/
theorem Flattens.unique (first : grammar.Flattens ids walk after)
    (second : grammar.Flattens ids walk other) : after = other := by
  induction first generalizing other with
  | done =>
    cases second
    rfl
  | noted fits _ ih =>
    cases second with
    | noted _ rest => exact ih rest
    | entered group _ _ _ | again group _ _ => exact absurd group (not_isGroup_of_fits fits)
    | skipped plain _ _ => exact absurd fits (by simp [plain])
  | entered group new _ _ inner ih =>
    cases second with
    | noted fits _ => exact absurd group (not_isGroup_of_fits fits)
    | entered _ _ inside rest =>
      cases inner inside
      exact ih rest
    | again _ old _ => exact absurd old new
    | skipped _ single _ => exact absurd group (by simp [single])
  | again group old _ ih =>
    cases second with
    | noted fits _ => exact absurd group (not_isGroup_of_fits fits)
    | entered _ new _ _ => exact absurd old new
    | again _ _ rest => exact ih rest
    | skipped _ single _ => exact absurd group (by simp [single])
  | skipped plain single _ ih =>
    cases second with
    | noted fits _ => exact absurd fits (by simp [plain])
    | entered group _ _ _ | again group _ _ => exact absurd group (by simp [single])
    | skipped _ _ rest => exact ih rest

/-- A walk has passed a rule: it has noted or entered it. -/
structure Flattening.Passed (grammar : CompiledGrammar) (walk : Flattening) (id : RuleId) : Prop where
  noted : (grammar.rule id).entryPattern.isSome → id ∈ walk.found
  entered : (grammar.rule id).isGroup → id ∈ walk.entered

theorem Flattening.Passed.grow (passed : walk.Passed grammar id) (grows : walk.Grows after) :
    after.Passed grammar id :=
  ⟨fun fits => grows.found (passed.noted fits), fun group => grows.entered (passed.entered group)⟩

theorem Flattening.passed_of_found (fits : (grammar.rule id).entryPattern.isSome)
    (member : id ∈ walk.found) : walk.Passed grammar id :=
  ⟨fun _ => member, fun group => absurd group (not_isGroup_of_fits fits)⟩

theorem Flattening.passed_of_entered (group : (grammar.rule id).isGroup)
    (member : id ∈ walk.entered) : walk.Passed grammar id :=
  ⟨fun fits => absurd group (not_isGroup_of_fits fits), fun _ => member⟩

/-- A walk passes all its rules, and those in every group that it enters. -/
theorem Flattens.passes (flattens : grammar.Flattens ids walk after) :
    (∀ id ∈ ids, after.Passed grammar id) ∧
      ∀ outer ∈ after.entered, outer ∈ walk.entered ∨
        ∀ id ∈ (grammar.rule outer).patterns, after.Passed grammar id := by
  induction flattens with
  | done => exact ⟨by simp, fun _ member => .inl member⟩
  | noted fits rest ih =>
    have own := Flattening.passed_of_found fits (rest.grows.found List.mem_cons_self)
    exact ⟨List.forall_mem_cons.mpr ⟨own, ih.1⟩, ih.2⟩
  | entered group new inside rest inner ih =>
    have own := Flattening.passed_of_entered group
      (rest.grows.entered (inside.grows.entered List.mem_cons_self))
    refine ⟨List.forall_mem_cons.mpr ⟨own, ih.1⟩, fun outer member => ?_⟩
    rcases ih.2 outer member with held | passed
    · rcases inner.2 outer held with old | passed
      · rcases List.mem_cons.mp old with rfl | before
        · exact .inr fun held member => (inner.1 held member).grow rest.grows
        · exact .inl before
      · exact .inr fun held member => (passed held member).grow rest.grows
    · exact .inr passed
  | again group old rest ih =>
    have own := Flattening.passed_of_entered group (rest.grows.entered old)
    exact ⟨List.forall_mem_cons.mpr ⟨own, ih.1⟩, ih.2⟩
  | @skipped _ _ after id plain single rest ih =>
    have own : after.Passed grammar id :=
      ⟨fun fits => absurd fits (by simp [plain]), fun group => absurd group (by simp [single])⟩
    exact ⟨List.forall_mem_cons.mpr ⟨own, ih.1⟩, ih.2⟩

/-- What a walk notes can be come to. -/
theorem Flattens.sound (flattens : grammar.Flattens ids walk after) :
    ∀ id ∈ after.found, id ∈ walk.found ∨
      grammar.ComesTo ids id ∧ (grammar.rule id).entryPattern.isSome := by
  induction flattens with
  | done => exact fun _ member => .inl member
  | noted fits rest ih =>
    intro id member
    rcases ih id member with held | ⟨comes, enters⟩
    · rcases List.mem_cons.mp held with rfl | before
      · exact .inr ⟨.here List.mem_cons_self, fits⟩
      · exact .inl before
    · exact .inr ⟨comes.mono (List.subset_cons_self ..), enters⟩
  | entered group new inside rest inner ih =>
    intro id member
    rcases ih id member with held | ⟨comes, enters⟩
    · rcases inner id held with before | ⟨comes, enters⟩
      · exact .inl before
      · exact .inr ⟨.inside List.mem_cons_self group comes, enters⟩
    · exact .inr ⟨comes.mono (List.subset_cons_self ..), enters⟩
  | again _ _ _ ih | skipped _ _ _ ih =>
    intro id member
    exact (ih id member).imp_right fun ⟨comes, enters⟩ =>
      ⟨comes.mono (List.subset_cons_self ..), enters⟩

/-- Where the rules in every group that was entered have been passed, so has all that can be come to. -/
theorem ComesTo.passed (comes : grammar.ComesTo ids id)
    (closed : ∀ outer ∈ walk.entered, ∀ id ∈ (grammar.rule outer).patterns, walk.Passed grammar id)
    (passed : ∀ id ∈ ids, walk.Passed grammar id) : walk.Passed grammar id := by
  induction comes with
  | here member => exact passed _ member
  | inside member group _ ih => exact ih (closed _ ((passed _ member).entered group))

/-- The rules tried inside a rule are those that can be come to and are entered by a pattern. -/
theorem mem_candidates (id held : RuleId) : held ∈ grammar.candidates id ↔
    grammar.ComesTo (grammar.rule id).patterns held ∧
      (grammar.rule held).entryPattern.isSome := by
  obtain ⟨after, flattens, same⟩ := grammar.flattens_candidates id
  rw [same, List.mem_reverse]
  constructor
  · intro member
    cases flattens.sound held member with
    | inl start => cases start
    | inr reached => exact reached
  · rintro ⟨comes, fits⟩
    obtain ⟨passed, closed⟩ := flattens.passes
    refine (comes.passed (fun outer member => ?_) passed).noted fits
    rcases closed outer member with start | closed
    · cases List.mem_singleton.mp start
      exact passed
    · exact closed

end Reached

section Expansion

variable {grammar : CompiledGrammar} {ids others : List RuleId} {id : RuleId}
  {walk middle after : Flattening}

/-- Rules are written out in one way only. -/
theorem Expands.unique (first : grammar.Expands ids out) (second : grammar.Expands ids other) :
    out = other := by
  induction first generalizing other with
  | done =>
    cases second
    rfl
  | noted fits _ ih =>
    cases second with
    | noted _ rest => rw [ih rest]
    | entered group _ _ => exact absurd group (not_isGroup_of_fits fits)
    | skipped plain _ _ => exact absurd fits (by simp [plain])
  | entered group _ _ inner ih =>
    cases second with
    | noted fits _ => exact absurd group (not_isGroup_of_fits fits)
    | entered _ inside rest => rw [inner inside, ih rest]
    | skipped _ single _ => exact absurd group (by simp [single])
  | skipped plain single _ ih =>
    cases second with
    | noted fits _ => exact absurd fits (by simp [plain])
    | entered group _ _ => exact absurd group (by simp [single])
    | skipped _ _ rest => exact ih rest

/-- A group has been walked through: all that it comes to when written out has been noted. -/
def Flattening.WrittenOut (grammar : CompiledGrammar) (walk : Flattening) (id : RuleId) : Prop :=
  ∃ out, grammar.Expands (grammar.rule id).patterns out ∧ ∀ held ∈ out, held ∈ walk.found

theorem Flattening.WrittenOut.grow (written : walk.WrittenOut grammar id)
    (grows : walk.Grows after) : after.WrittenOut grammar id :=
  ⟨written.choose, written.choose_spec.1, fun held member =>
    grows.found (written.choose_spec.2 held member)⟩

/-- What stands in front counts only by its first copies. -/
theorem eraseDups_append_congr (same : ids.eraseDups = others.eraseDups) (back : List RuleId) :
    (ids ++ back).eraseDups = (others ++ back).eraseDups := by
  have members : ∀ id, id ∈ ids ↔ id ∈ others := fun id => by
    rw [← List.mem_eraseDups, same, List.mem_eraseDups]
  have fewer : back.removeAll ids = back.removeAll others :=
    List.filter_congr fun id _ => by simp [members]
  rw [List.eraseDups_append, List.eraseDups_append, same, fewer]

/-- What stands in front already adds nothing. -/
theorem eraseDups_append_subset {front back : List RuleId} (held : ∀ id ∈ back, id ∈ front) :
    (front ++ back).eraseDups = front.eraseDups := by
  have nothing : back.removeAll front = [] :=
    List.filter_eq_nil_iff.mpr fun id member => by simp [held id member]
  rw [List.eraseDups_append, nothing, List.eraseDups_nil, List.append_nil]

/-- Rules that lie below groups: every group among them is held by those on a path, at some depth, and
none that can be come to holds itself. -/
structure LiesBelow (grammar : CompiledGrammar) (path ids : List RuleId) : Prop where
  acyclic : ∀ id, grammar.ComesTo ids id → ¬ Relation.TransGen grammar.HoldsGroup id id
  above : ∀ outer ∈ path, ∀ id ∈ ids, (grammar.rule id).isGroup →
    Relation.TransGen grammar.HoldsGroup outer id

namespace LiesBelow

variable {path : List RuleId}

theorem top (acyclic : grammar.AcyclicBelow id) :
    grammar.LiesBelow [id] (grammar.rule id).patterns where
  acyclic := acyclic
  above outer member inner below group := by
    rw [List.mem_singleton.mp member]
    exact .single ⟨below, group⟩

theorem tail (lies : grammar.LiesBelow path (id :: ids)) : grammar.LiesBelow path ids where
  acyclic inner comes := lies.acyclic inner (comes.mono (List.subset_cons_self ..))
  above outer member inner below := lies.above outer member inner (List.mem_cons_of_mem _ below)

/-- The rules in a group lie below the group as well. -/
theorem inside (lies : grammar.LiesBelow path (id :: ids)) (group : (grammar.rule id).isGroup) :
    grammar.LiesBelow (id :: path) (grammar.rule id).patterns where
  acyclic inner comes := lies.acyclic inner (.inside List.mem_cons_self group comes)
  above outer member inner below innerGroup := by
    have last : grammar.HoldsGroup id inner := ⟨below, innerGroup⟩
    rcases List.mem_cons.mp member with rfl | onPath
    · exact .single last
    · exact (lies.above outer onPath id List.mem_cons_self group).tail last

/-- A group is not on the path to it. -/
theorem not_mem (lies : grammar.LiesBelow path (id :: ids)) (group : (grammar.rule id).isGroup) :
    id ∉ path := fun onPath =>
  lies.acyclic id (.here List.mem_cons_self) (lies.above id onPath id List.mem_cons_self group)

end LiesBelow

/-- Every group that a walk has entered is on a path, or has been written out. -/
def Flattening.Settles (grammar : CompiledGrammar) (walk : Flattening) (path : List RuleId) : Prop :=
  ∀ id ∈ walk.entered, id ∈ path ∨ walk.WrittenOut grammar id

/-- A walk notes what its rules come to when written out, but for later copies; the groups on the way to
it are not among them. -/
theorem Flattens.writes_out (flattens : grammar.Flattens ids walk after) {path : List RuleId}
    (lies : grammar.LiesBelow path ids) (settles : walk.Settles grammar path) :
    (∃ out, grammar.Expands ids out ∧
      after.found.reverse.eraseDups = (walk.found.reverse ++ out).eraseDups) ∧
      after.Settles grammar path := by
  induction flattens generalizing path with
  | done => exact ⟨⟨[], .done, by rw [List.append_nil]⟩, settles⟩
  | @noted _ walk _ id fits rest ih =>
    obtain ⟨⟨out, expands, same⟩, settles⟩ := ih lies.tail fun inner member =>
      (settles inner member).imp_right (·.grow (walk.grows_note id))
    refine ⟨⟨id :: out, .noted fits expands, ?_⟩, settles⟩
    rw [same, List.reverse_cons, List.append_assoc, List.singleton_append]
  | @entered walk middle ids after id group new inside rest inner ih =>
    have started : Flattening.Settles grammar { walk with entered := id :: walk.entered }
        (id :: path) := by
      intro held member
      rcases List.mem_cons.mp member with rfl | before
      · exact .inl List.mem_cons_self
      · exact (settles held before).imp (List.mem_cons_of_mem id) (·.grow (walk.grows_enter id))
    obtain ⟨⟨copy, written, first⟩, done⟩ := inner (lies.inside group) started
    -- The group just walked through is no longer on the path: it has been written out.
    have finished : middle.Settles grammar path := by
      intro held member
      rcases done held member with onPath | written
      · rcases List.mem_cons.mp onPath with rfl | before
        · refine .inr ⟨copy, ‹_›, fun held member => ?_⟩
          rw [← List.mem_reverse, ← List.mem_eraseDups, first, List.mem_eraseDups]
          exact List.mem_append_right _ member
        · exact .inl before
      · exact .inr written
    obtain ⟨⟨out, expands, second⟩, settles⟩ := ih lies.tail finished
    refine ⟨⟨copy ++ out, .entered group written expands, ?_⟩, settles⟩
    rw [second, eraseDups_append_congr first, List.append_assoc]
  | @again _ walk _ id group old rest ih =>
    obtain ⟨⟨out, expands, same⟩, later⟩ := ih lies.tail settles
    obtain ⟨copy, written, held⟩ := (settles id old).resolve_left (lies.not_mem group)
    refine ⟨⟨copy ++ out, .entered group written expands, ?_⟩, later⟩
    -- The place adds nothing: all that the group comes to stands in the list already.
    have before : (walk.found.reverse ++ copy).eraseDups = walk.found.reverse.eraseDups :=
      eraseDups_append_subset fun id member => List.mem_reverse.mpr (held id member)
    rw [same, ← List.append_assoc, eraseDups_append_congr before]
  | skipped plain single rest ih =>
    obtain ⟨⟨out, expands, same⟩, settles⟩ := ih lies.tail settles
    exact ⟨⟨out, .skipped plain single expands, same⟩, settles⟩

end Expansion
end CompiledGrammar

namespace Line

open Pattern

section Copies

variable {line : SourceLine} {pos : Nat} {best : Option Match} {entries others front back : List Entry}

/-- A set of which nothing is remembered answers as a search afresh. -/
theorem PatternSet.findFrom_fresh (fresh : ∀ entry ∈ entries, entry.memo = none)
    (best : Option Match) :
    (findFrom line pos best entries).1 = bestAfresh line pos best entries := by
  induction entries generalizing best with
  | nil => rfl
  | cons entry entries ih =>
    obtain ⟨own, rest⟩ := List.forall_mem_cons.mp fresh
    have ih := ih rest
    have searched : (entry.search line pos).1 = entry.searchAfresh line pos := by
      rcases entry.search_cases line pos with ⟨same, _⟩ | ⟨_, _, memo, held, _⟩
      · exact same
      · rw [own] at held
        cases held
    rw [findFrom_cons, bestAfresh, searched]
    split
    · exact ih best
    · split
      · rfl
      · exact ih _

theorem PatternSet.bestAfresh_append_congr
    (same : ∀ best, bestAfresh line pos best entries = bestAfresh line pos best others)
    (front : List Entry) (best : Option Match) :
    bestAfresh line pos best (front ++ entries) = bestAfresh line pos best (front ++ others) := by
  induction front generalizing best with
  | nil => exact same best
  | cons entry front ih =>
    rw [List.cons_append, List.cons_append, bestAfresh, bestAfresh]
    split
    · exact ih best
    · split
      · rfl
      · exact ih _

/-- A pattern finds nothing that is better than the best so far. -/
def Entry.Settled (line : SourceLine) (pos : Nat) (best : Option Match) (entry : Entry) : Prop :=
  ((entry.searchAfresh line pos).bind entry.toMatch).filter (better best) = none

/-- A better match settles what the one before it has settled. -/
theorem Entry.Settled.improve {entry : Entry} (settled : entry.Settled line pos best)
    (wins : better best found = true) : entry.Settled line pos (some found) := by
  rw [Entry.Settled, Option.filter_eq_none_iff] at settled ⊢
  intro other seen later
  refine settled other seen ?_
  cases best with
  | none => rfl
  | some best =>
    simp only [better, decide_eq_true_eq] at wins later ⊢
    exact Nat.lt_trans later wins

theorem Entry.settled_self {entry : Entry}
    (seen : (entry.searchAfresh line pos).bind entry.toMatch = some found) :
    entry.Settled line pos (some found) := by
  rw [Entry.Settled, seen, Option.filter_eq_none_iff]
  rintro _ ⟨⟩
  simp [better]

/-- Copies of a rule whose pattern is settled can be left out. -/
theorem PatternSet.bestAfresh_filter {start : RuleId → Option Entry} {id : RuleId}
    (settled : ∀ entry, start id = some entry → entry.Settled line pos best) (ids : List RuleId) :
    bestAfresh line pos best ((ids.filter fun other => !other == id).filterMap start ++ back) =
      bestAfresh line pos best (ids.filterMap start ++ back) := by
  induction ids generalizing best with
  | nil => rfl
  | cons other ids ih =>
    by_cases same : other = id
    · subst same
      rw [List.filter_cons_of_neg (by simp)]
      cases own : start other with
      | none => rw [List.filterMap_cons_none own, ih settled]
      | some entry =>
        have idle := settled entry own
        rw [Entry.Settled] at idle
        rw [List.filterMap_cons_some own, List.cons_append, bestAfresh, idle, ih settled]
    · rw [List.filter_cons_of_pos (by simpa using same)]
      cases own : start other with
      | none => rw [List.filterMap_cons_none own, List.filterMap_cons_none own, ih settled]
      | some entry =>
        rw [List.filterMap_cons_some own, List.filterMap_cons_some own, List.cons_append,
          List.cons_append, bestAfresh, bestAfresh]
        split
        · exact ih settled
        · next found wins =>
          split
          · rfl
          · have wins := (Option.filter_eq_some_iff.mp wins).2
            exact ih fun entry made => (settled entry made).improve wins

/-- Only the first copy of each rule counts. -/
theorem PatternSet.bestAfresh_eraseDups (start : RuleId → Option Entry) (ids : List RuleId)
    (best : Option Match) :
    bestAfresh line pos best (ids.eraseDups.filterMap start ++ back) =
      bestAfresh line pos best (ids.filterMap start ++ back) := by
  induction many : ids.length using Nat.strongRecOn generalizing ids best with
  | _ count ih =>
    cases ids with
    | nil => rfl
    | cons id ids =>
      have less : (ids.filter fun other => !other == id).length < count := by
        rw [← many]
        exact Nat.lt_succ_of_le (List.length_filter_le ..)
      have rest (best : Option Match)
          (settled : ∀ entry, start id = some entry → entry.Settled line pos best) :
          bestAfresh line pos best
              ((ids.filter fun other => !other == id).eraseDups.filterMap start ++ back) =
            bestAfresh line pos best (ids.filterMap start ++ back) :=
        (ih _ less _ best rfl).trans (bestAfresh_filter settled ids)
      rw [List.eraseDups_cons]
      cases own : start id with
      | none =>
        rw [List.filterMap_cons_none own, List.filterMap_cons_none own]
        exact rest best fun entry made => by rw [own] at made; cases made
      | some entry =>
        rw [List.filterMap_cons_some own, List.filterMap_cons_some own, List.cons_append,
          List.cons_append, bestAfresh, bestAfresh]
        split
        next idle =>
          refine rest best fun other made => ?_
          cases own.symm.trans made
          exact idle
        next found wins =>
          split
          · rfl
          · refine rest _ fun other made => ?_
            cases own.symm.trans made
            exact Entry.settled_self (Option.filter_eq_some_iff.mp wins).1

end Copies

section Sets

variable {engine : Engine} {grammar : CompiledGrammar} {store : Store} {ids others : List RuleId}

/-- Candidates in order, each with its own entry: what the store remembers does not matter. -/
theorem entriesOf_eq (serves : store.Serves engine grammar) (flavour : Flavour)
    (ids : List RuleId) :
    (entriesOf engine grammar flavour ids store).1 =
      ids.filterMap fun id => (entryOf engine grammar flavour id (.untouched grammar)).1 := by
  induction ids generalizing store with
  | nil => rfl
  | cons id ids ih =>
    have steady := entryOf_steady engine grammar flavour id
    have rest := ih (steady.serves serves)
    have whole : (entriesOf engine grammar flavour (id :: ids) store).1 =
        (entryOf engine grammar flavour id store).1.toList ++
          (entriesOf engine grammar flavour ids (entryOf engine grammar flavour id store).2).1 := rfl
    rw [whole, rest, steady.eq_untouched serves, List.filterMap_cons]
    cases (entryOf engine grammar flavour id (.untouched grammar)).1 <;> rfl

/-- The patterns by which rules are entered, with others before and after them. -/
def setAround (engine : Engine) (grammar : CompiledGrammar) (flavour : Flavour) (ids : List RuleId)
    (store : Store) (front back : List Entry) : PatternSet :=
  ⟨front ++ (entriesOf engine grammar flavour ids store).1 ++ back⟩

/-- Sets of patterns answer alike whichever of two lists of rules they are built from. -/
structure AnswerAlike (grammar : CompiledGrammar) (ids others : List RuleId) : Prop where
  /-- A set that has just been built finds the same match. -/
  first : ∀ {engine : Engine} {store : Store}, store.Serves engine grammar →
    ∀ flavour front back, (∀ entry ∈ front ++ back, entry.memo = none) → ∀ line pos,
      ((setAround engine grammar flavour ids store front back).find line pos).1 =
        ((setAround engine grammar flavour others store front back).find line pos).1
  /-- So does a set that has been asked before, if its patterns are steady. -/
  each : ∀ {engine : Engine} {store : Store}, store.Serves engine grammar →
    ∀ flavour front back, (∀ entry ∈ front ++ back, entry.memo = none) →
      (∀ entry ∈ (setAround engine grammar flavour ids store front back).entries, entry.Steady) →
      ∀ questions, Distinct (questions.map Prod.fst) →
        (setAround engine grammar flavour ids store front back).findEach questions =
          (setAround engine grammar flavour others store front back).findEach questions

theorem mem_setAround {entry : Entry} {front back : List Entry} :
    entry ∈ (setAround engine grammar flavour ids store front back).entries ↔
      entry ∈ front ++ back ∨ entry ∈ (entriesOf engine grammar flavour ids store).1 := by
  simp only [setAround, List.mem_append]
  tauto

theorem setAround_fresh (serves : store.Serves engine grammar) {front back : List Entry}
    (around : ∀ entry ∈ front ++ back, entry.memo = none) :
    ∀ entry ∈ (setAround engine grammar flavour ids store front back).entries,
      entry.memo = none := by
  intro entry member
  rcases mem_setAround.mp member with outside | inside
  · exact around entry outside
  · exact (entriesOf_fresh serves flavour ids entry inside).memo

/-- Lists of rules answer alike if they are the same but for later copies. -/
theorem answerAlike_of_eraseDups (same : ids.eraseDups = others.eraseDups) :
    AnswerAlike grammar ids others := by
  have found {engine : Engine} {store : Store} (serves : store.Serves engine grammar)
      (flavour : Flavour) (front back : List Entry) (line : SourceLine) (pos : Nat) :
      (setAround engine grammar flavour ids store front back).findAfresh line pos =
        (setAround engine grammar flavour others store front back).findAfresh line pos := by
    rw [PatternSet.findAfresh, PatternSet.findAfresh, setAround, setAround, List.append_assoc,
      List.append_assoc, entriesOf_eq serves, entriesOf_eq serves]
    refine PatternSet.bestAfresh_append_congr (fun best => ?_) front none
    rw [← PatternSet.bestAfresh_eraseDups, same, PatternSet.bestAfresh_eraseDups]
  constructor
  · intro engine store serves flavour front back around line pos
    rw [PatternSet.find, PatternSet.find]
    exact (PatternSet.findFrom_fresh (setAround_fresh serves around) none).trans
      ((found serves flavour front back line pos).trans
        (PatternSet.findFrom_fresh (setAround_fresh serves around) none).symm)
  · intro engine store serves flavour front back around steady questions distinct
    have afresh (ids : List RuleId) (steady : ∀ entry ∈
        (setAround engine grammar flavour ids store front back).entries, entry.Steady) :
        (setAround engine grammar flavour ids store front back).findEach questions =
          questions.map fun question =>
            (setAround engine grammar flavour ids store front back).findAfresh question.1
              question.2 := by
      refine PatternSet.findEach_eq questions (fun entry member memo held => ?_) steady distinct
        fun question member => List.mem_map_of_mem member
      rw [setAround_fresh serves around entry member] at held
      cases held
    have among : ∀ id, id ∈ ids ↔ id ∈ others := fun id => by
      rw [← List.mem_eraseDups, same, List.mem_eraseDups]
    have steadyOthers : ∀ entry ∈ (setAround engine grammar flavour others store front back).entries,
        entry.Steady := by
      intro entry member
      refine steady entry (mem_setAround.mpr ((mem_setAround.mp member).imp_right fun inside => ?_))
      rw [entriesOf_eq serves] at inside ⊢
      obtain ⟨id, listed, made⟩ := List.mem_filterMap.mp inside
      exact List.mem_filterMap.mpr ⟨id, (among id).mpr listed, made⟩
    rw [afresh ids steady, afresh others steadyOthers]
    exact List.map_congr_left fun question _ =>
      found serves flavour front back question.1 question.2

end Sets
end Line

/-- The list of rules tried inside a rule is complete, and no more than that. The walk that makes it
ends, in one way only and without a bound on its depth; what it finds are the rules that can be come to
through groups and are entered by a pattern, whether or not groups hold each other. Where none below the
rule holds itself, the groups can be written out in full, and the list is what that comes to but for
later copies; so the same match is found with both. -/
theorem candidates_complete (grammar : CompiledGrammar) (id : RuleId) :
    (∃ after, grammar.Flattens (grammar.rule id).patterns { entered := [id] } after ∧
      (∀ other, grammar.Flattens (grammar.rule id).patterns { entered := [id] } other →
        other = after) ∧
      grammar.candidates id = after.found.reverse) ∧
    (∀ held, held ∈ grammar.candidates id ↔ grammar.ComesTo (grammar.rule id).patterns held ∧
      (grammar.rule held).entryPattern.isSome) ∧
    (grammar.AcyclicBelow id →
      (∃ out, grammar.Expands (grammar.rule id).patterns out) ∧
      ∀ out, grammar.Expands (grammar.rule id).patterns out →
        (grammar.candidates id).eraseDups = out.eraseDups ∧
        Line.AnswerAlike grammar (grammar.candidates id) out) := by
  obtain ⟨after, flattens, same⟩ := grammar.flattens_candidates id
  refine ⟨⟨after, flattens, fun other found => found.unique flattens, same⟩,
    CompiledGrammar.mem_candidates id, fun acyclic => ?_⟩
  obtain ⟨⟨out, expands, copies⟩, -⟩ :=
    flattens.writes_out (.top acyclic) fun inner member => .inl member
  rw [← same, List.reverse_nil, List.nil_append] at copies
  refine ⟨⟨out, expands⟩, fun other written => ?_⟩
  rw [← expands.unique written]
  exact ⟨copies, Line.answerAlike_of_eraseDups copies⟩

namespace Twice

/-- A grammar whose top level names a group twice. -/
def grammar : CompiledGrammar where
  scopeName := "source.twice"
  root := 0
  rules := #[.group ⟨none, none, [1, 2, 1, 3], false⟩, .group ⟨none, none, [3, 2], false⟩,
    .single ⟨none, 0, {}⟩, .single ⟨none, 1, {}⟩]
  patterns := #[.ofText "a", .ofText "b"]
  injections := []

theorem lt_of_holdsGroup {outer inner : RuleId} (holds : grammar.HoldsGroup outer inner) :
    outer < inner := by
  match outer, holds.1 with
  | 0, member => exact (by decide : ∀ inner ∈ [1, 2, 1, 3], 0 < inner) inner member
  | 1, member => exact (by decide : ∀ inner ∈ [3, 2], 1 < inner) inner member
  | 2, member | 3, member | _ + 4, member => cases member

theorem acyclic : grammar.AcyclicBelow 0 := by
  have up {outer inner : RuleId} (below : Relation.TransGen grammar.HoldsGroup outer inner) :
      outer < inner := by
    induction below with
    | single holds => exact lt_of_holdsGroup holds
    | tail _ holds ih => exact Nat.lt_trans ih (lt_of_holdsGroup holds)
  exact fun inner _ cycle => Nat.lt_irrefl inner (up cycle)

theorem expands : grammar.Expands (grammar.rule 0).patterns [3, 2, 2, 3, 2, 3] := by
  have inner : grammar.Expands (grammar.rule 1).patterns [3, 2] := .noted rfl (.noted rfl .done)
  have last : grammar.Expands [1, 3] [3, 2, 3] := .entered rfl inner (.noted rfl .done)
  exact .entered rfl inner (.noted rfl last)

end Twice

/-- The group is entered at the first of two places, so the rules in it stand in the list once less than
when it is written out at both. -/
theorem candidates_complete_twice :
    let line := Tokenizer.lineOf "ba"
    let store := Pattern.Store.untouched Twice.grammar
    let set (ids : List RuleId) := Line.setAround literal Twice.grammar .both ids store [] []
    Twice.grammar.AcyclicBelow 0 ∧
      Twice.grammar.Expands (Twice.grammar.rule 0).patterns [3, 2, 2, 3, 2, 3] ∧
      store.Serves literal Twice.grammar ∧
      (∀ entry ∈ (set (Twice.grammar.candidates 0)).entries, entry.Steady) ∧
      (Twice.grammar.candidates 0).eraseDups = [3, 2, 2, 3, 2, 3].eraseDups ∧
      ((set (Twice.grammar.candidates 0)).find line 0).1 =
        ((set [3, 2, 2, 3, 2, 3]).find line 0).1 ∧
      (set (Twice.grammar.candidates 0)).findEach [(line, 1), (line, 0)] =
        (set [3, 2, 2, 3, 2, 3]).findEach [(line, 1), (line, 0)] := by
  intro line store set
  have serves : store.Serves literal Twice.grammar := Pattern.Store.serves_untouched ..
  have nothing : ∀ entry ∈ ([] ++ [] : List Line.Entry), entry.memo = none := by simp
  have steady : ∀ entry ∈ (set (Twice.grammar.candidates 0)).entries, entry.Steady := by
    intro entry member _ searcher compiled
    rcases Line.mem_setAround.mp member with outside | inside
    · cases outside
    · obtain ⟨word, rfl⟩ :=
        literal_makes ((Line.entriesOf_fresh serves .both _ entry inside).made searcher compiled)
      exact literalSearch_steady word
  have distinct : Line.Distinct ([(line, 1), (line, 0)].map Prod.fst) := by
    simp [Line.Distinct]
  obtain ⟨same, alike⟩ :=
    ((candidates_complete Twice.grammar 0).2.2 Twice.acyclic).2 _ Twice.expands
  exact ⟨Twice.acyclic, Twice.expands, serves, steady, same,
    alike.first serves .both [] [] nothing line 0,
    alike.each serves .both [] [] nothing steady _ distinct⟩

end ScopeLexer

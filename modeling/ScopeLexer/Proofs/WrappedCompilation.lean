import ScopeLexer.Proofs.WrappedGrammar

/-! Compiling a rule alone and inside a list. Up to the injection the two compilations go in
step and number alike. Then the one gives the next number to the rule; the other gives it to
the list, and the one after it to the rule. So from there on the numbers of the one are one
less than those of the other, and the two are in step again. -/
namespace ScopeLexer.Grammar

open Pattern Regex

def shiftFrom (start id : Nat) : Nat := if id < start then id else id + 1

theorem shiftFrom_injective (start id other : Nat)
    (same : shiftFrom start id = shiftFrom start other) : id = other := by
  unfold shiftFrom at same
  split at same <;> split at same <;> omega

theorem shiftFrom_of_lt {start id : Nat} (below : id < start) : shiftFrom start id = id :=
  if_pos below

theorem shiftFrom_of_le {start id : Nat} (above : start ≤ id) : shiftFrom start id = id + 1 :=
  if_neg (Nat.not_lt.mpr above)

theorem shiftFrom_ne (start id : Nat) : shiftFrom start id ≠ start := by
  unfold shiftFrom
  split <;> omega

/-- Room at a number or after it is the same to all other numbers. -/
theorem shiftFrom_succ {start id : Nat} (apart : id ≠ start) :
    shiftFrom start id = shiftFrom (start + 1) id := by
  unfold shiftFrom
  split <;> split <;> omega

theorem shiftFrom_lt_iff {start size id : Nat} (below : start < size) :
    shiftFrom (start + 1) id < size + 1 ↔ id < size := by
  unfold shiftFrom
  split <;> omega

theorem CaptureTable.mapIds_congr {change other : RuleId → RuleId} {table : CaptureTable}
    (same : ∀ id ∈ table.ids, change id = other id) :
    table.mapIds change = table.mapIds other := by
  refine congrArg CaptureTable.mk (Array.map_congr_left fun held member => ?_)
  cases held with
  | none => rfl
  | some id => exact congrArg some (same id (CaptureTable.mem_ids_iff.mpr member))

/-- Only the numbers of the rules that a rule names matter. -/
theorem Rule.mapIds_congr {change other : RuleId → RuleId} {rule : Rule}
    (same : ∀ id ∈ rule.ids, change id = other id) : rule.mapIds change = rule.mapIds other := by
  cases rule with
  | single rule => simp only [mapIds, CaptureTable.mapIds_congr same]
  | group rule =>
    exact congrArg (fun held => Rule.group { rule with patterns := held })
      (List.map_congr_left same)
  | region rule =>
    simp only [ids, List.mem_append] at same
    simp only [mapIds, CaptureTable.mapIds_congr fun id among => same id (.inl (.inl among)),
      CaptureTable.mapIds_congr fun id among => same id (.inl (.inr among)),
      List.map_congr_left fun id among => same id (.inr among)]
  | block rule =>
    simp only [ids, List.mem_append] at same
    simp only [mapIds, CaptureTable.mapIds_congr fun id among => same id (.inl (.inl among)),
      CaptureTable.mapIds_congr fun id among => same id (.inl (.inr among)),
      List.map_congr_left fun id among => same id (.inr among)]
  | capture rule =>
    obtain ⟨name, contentName, _ | retokenize⟩ := rule
    · rfl
    · simp only [mapIds, Option.map_some, same retokenize List.mem_cons_self]
  | reserved => rfl

/-- A rule under a number that the one compilation has not given out in step. -/
theorem Lockstep.Related.spare {lockstep : Lockstep} {depth otherDepth : Nat}
    {state other : CompilerState} (related : lockstep.Related depth otherDepth state other)
    {number : RuleId} (apart : ∀ id, lockstep.rename id ≠ number) (rule : Rule) :
    lockstep.Related depth otherDepth state
      { other with rules := other.rules.setIfInBounds number rule } :=
  { related with
    size := by simpa using related.size
    rules := fun id bound => by
      rw [Array.getElem?_setIfInBounds_ne (Ne.symm (apart id))]
      exact related.rules id bound }

/-- A list of one rule is compiled to that rule, or to nothing if the rule is. -/
def listOf (id : RuleId) (hollow : Bool) : Rule :=
  .group ⟨none, none, if hollow then [] else [id], hollow⟩

/-- A list of one rule is compiled to a group that holds what the rule is compiled to. -/
theorem compileRule_list (recurse : Recurse) (grammars : Loaded) (engine : Engine)
    {context : Context} {number : Place} (own : (context.grammar.rule number).reference = none) :
    compileRule recurse grammars engine context { patterns := some [number] } = (do
      let id ← recurse context (some number)
      let rules := (← get).rules
      return listOf id (rules[id]?.getD .reserved).isHollow) := by
  have group : compileRule recurse grammars engine context { patterns := some [number] } =
      compilePatterns recurse grammars context [number] >>= fun compiled =>
        pure (.group ⟨none, none, compiled.1, compiled.2⟩) := rfl
  rw [group]
  unfold compilePatterns
  simp only [List.filterMapM_cons, List.filterMapM_nil, own, bind_assoc, pure_bind,
    map_eq_pure_bind, Option.filter_some]
  refine bind_congr fun id => bind_congr fun state => ?_
  cases (state.rules[id]?.getD .reserved).isHollow <;> rfl

namespace Wrapping

variable (wrapping : Wrapping) (engine : Engine) {depth otherDepth : Nat}
  {state other : CompilerState}

/-- The compilations up to the rule and the list. -/
def first : Lockstep :=
  wrapping.lockstep engine (fun id => id) (fun _ _ same => same) (fun _ => True) (fun _ => none)
    fun _ => none

/-- The compilations from the rule and the list on, which come by neither again. The number of
the list is that of the rule, and the rule has the next. -/
def second (start : RuleId) (kept otherKept : Key → Option RuleId) : Lockstep :=
  wrapping.lockstep engine (shiftFrom start) (shiftFrom_injective start) (· ≠ start) kept otherKept

/-- The state in which the rule is compiled as an injection. -/
def plainState (state : CompilerState) : CompilerState :=
  Lockstep.CompilerState.entered state wrapping.ruleKey

/-- The state in which the rule is compiled inside the list. -/
def listedState (state : CompilerState) : CompilerState :=
  Lockstep.CompilerState.entered (Lockstep.CompilerState.entered state wrapping.listKey)
    wrapping.ruleKey

/-- The compilations after the rule and the list have been given their numbers. -/
def onward (state other : CompilerState) : Lockstep :=
  wrapping.second engine state.rules.size (wrapping.plainState state).numbers.get?
    (wrapping.listedState other).numbers.get?

variable {wrapping engine}

section Onward

theorem valid_onward {id : RuleId} (below : id < state.rules.size) :
    (wrapping.onward engine state other).Valid (wrapping.plainState state) id := by
  have size : (wrapping.plainState state).rules.size = state.rules.size + 1 := Array.size_push ..
  exact ⟨size ▸ Nat.lt_succ_of_lt below, Nat.ne_of_lt below⟩

variable (related : (wrapping.first engine).Related depth otherDepth state other)
include related

theorem mapIds_onward {rule : Rule} (member : rule ∈ state.rules) :
    rule.mapIds (shiftFrom state.rules.size) = rule.mapIds fun id => id :=
  Rule.mapIds_congr fun id among => shiftFrom_of_lt (related.named rule member id among).1

/-- After the list has its number, every rule of the one stands a place further on in the other. -/
theorem rules_onward (id : Nat) (bound : id < (wrapping.plainState state).rules.size) :
    (wrapping.listedState other).rules[shiftFrom state.rules.size id]? =
      (wrapping.plainState state).rules[id]?.map (Rule.mapIds (shiftFrom state.rules.size)) := by
  have size : other.rules.size = state.rules.size := related.size
  have plain : (wrapping.plainState state).rules = state.rules.push .reserved := rfl
  have listed : (wrapping.listedState other).rules =
    (other.rules.push .reserved).push .reserved := rfl
  rw [plain, Array.size_push] at bound
  rw [plain, listed, Array.getElem?_push, Array.getElem?_push, Array.getElem?_push, Array.size_push,
    size]
  rcases Nat.lt_succ_iff_lt_or_eq.mp bound with old | rfl
  · have same : other.rules[id]? = state.rules[id]?.map (Rule.mapIds fun id => id) :=
      related.rules id old
    rw [shiftFrom_of_lt old, if_neg (by omega), if_neg (by omega), if_neg (by omega), same,
      Array.getElem?_eq_getElem old, Option.map_some, Option.map_some,
      mapIds_onward related (Array.getElem_mem old)]
  · rw [shiftFrom_of_le (Nat.le_refl _), if_pos rfl, if_pos rfl]
    rfl

/-- The compilations go on in step when the rule and the list have been given their numbers. -/
theorem related_onward {inner otherInner : Nat}
    (enough : unnumbered wrapping.grammars (wrapping.plainState state) < inner)
    (otherEnough : unnumbered wrapping.others (wrapping.listedState other) < otherInner) :
    (wrapping.onward engine state other).Related inner otherInner (wrapping.plainState state)
      (wrapping.listedState other) := by
  have plain : (wrapping.plainState state).rules = state.rules.push .reserved := rfl
  -- What both have given a number to has it still.
  have numbered (key : Key) (asked : (wrapping.onward engine state other).Asked key) :
      (wrapping.plainState state).numbers.get? key = state.numbers.get? key ∧
        (wrapping.listedState other).numbers.get? key = other.numbers.get? key := by
    simp only [plainState, listedState, Lockstep.CompilerState.entered, Dictionary.get?_insert,
      if_neg asked.1, if_neg asked.2, and_self]
  exact {
    size := by
      have size : other.rules.size = state.rules.size := related.size
      have shifted : (wrapping.onward engine state other).rename
        (wrapping.plainState state).rules.size = shiftFrom state.rules.size
          (wrapping.plainState state).rules.size := rfl
      have listed : (wrapping.listedState other).rules =
        (other.rules.push .reserved).push .reserved := rfl
      rw [shifted, plain, listed, Array.size_push, Array.size_push, Array.size_push, size,
        shiftFrom_of_le (Nat.le_succ _)]
    rules := rules_onward related
    named := fun rule member id among => by
      rcases Array.mem_push.mp (plain ▸ member) with old | rfl
      · exact valid_onward (related.named rule old id among).1
      · cases among
    fits := fun rule member => by
      rcases Array.mem_push.mp (plain ▸ member) with old | rfl
      · exact related.fits rule old
      · trivial
    fresh := fun id above => by
      rw [plain, Array.size_push] at above
      exact ⟨Nat.ne_of_gt above, (shiftFrom_of_le (by omega)).trans
        (congrArg (· + 1) (shiftFrom_of_le (by omega)).symm)⟩
    numbers := fun key asked => by
      obtain ⟨here, there⟩ := numbered key asked
      have same : other.numbers.get? key = (state.numbers.get? key).map fun id => id :=
        related.numbers key asked
      rw [here, there, same]
      cases found : state.numbers.get? key with
      | none => rfl
      | some id =>
        exact congrArg some (shiftFrom_of_lt (related.numbered key id asked found).1).symm
    numbered := fun key id asked found => by
      rw [(numbered key asked).1] at found
      exact valid_onward (related.numbered key id asked found).1
    kept := fun key _ => ⟨rfl, rfl⟩
    patterns := related.patterns
    journal := related.journal
    depth := enough
    otherDepth := otherEnough }

end Onward

section Entry

variable (wrapping engine)

/-- A rule has been compiled under a number. -/
def defined (id : RuleId) (rule : Rule) (state : CompilerState) : CompilerState :=
  { state with rules := state.rules.setIfInBounds id rule }

/-- Something that has no number yet is compiled under the next. -/
theorem run_compileAt_fresh (grammars : Loaded) (engine : Engine) (depth : Nat) (context : Context)
    (place : Option Place) (key : Key) (same : ⟨place, context.grammar.scopeName⟩ = key)
    (fresh : state.numbers.get? key = none) :
    (compileAt grammars engine (depth + 1) context place).run.run state =
      match (Lockstep.compileFresh grammars engine (compileAt grammars engine depth) context
          place).run.run (Lockstep.CompilerState.entered state key) with
      | (.ok rule, after) => (.ok state.rules.size, defined state.rules.size rule after)
      | (.error error, after) => (.error error, after) := by
  subst same
  rw [Lockstep.run_compileAt, fresh, Lockstep.CompilerState.entered]
  simp only
  rw [run_bind]
  split
  next rule after run =>
    rw [run]
    rfl
  next error after run => rw [run]

theorem run_rule (depth : Nat) (fresh : state.numbers.get? wrapping.ruleKey = none) :
    (compileAt wrapping.grammars engine (depth + 1) (.top wrapping.base wrapping.base)
        (some wrapping.place)).run.run state =
      match (compileRule (compileAt wrapping.grammars engine depth) wrapping.grammars engine
          (.top wrapping.base wrapping.base) (wrapping.base.rule wrapping.place)).run.run
          (wrapping.plainState state) with
      | (.ok rule, after) => (.ok state.rules.size, defined state.rules.size rule after)
      | (.error error, after) => (.error error, after) :=
  run_compileAt_fresh wrapping.grammars engine depth _ (some wrapping.place) wrapping.ruleKey rfl
    fresh

/-- The list is compiled by compiling the rule inside it. -/
theorem run_list (depth : Nat) (freshRule : other.numbers.get? wrapping.ruleKey = none)
    (freshList : other.numbers.get? wrapping.listKey = none) :
    (compileAt wrapping.others engine (depth + 2) (.top wrapping.wrapped wrapping.wrapped)
        (some wrapping.base.rules.size)).run.run other =
      match (compileRule (compileAt wrapping.others engine depth) wrapping.others engine
          (.top wrapping.wrapped wrapping.wrapped) (wrapping.base.rule wrapping.place)).run.run
          (wrapping.listedState other) with
      | (.ok rule, after) =>
        (.ok other.rules.size, defined other.rules.size
          (listOf (other.rules.size + 1)
            (((defined (other.rules.size + 1) rule after).rules[other.rules.size + 1]?).getD
              .reserved).isHollow)
          (defined (other.rules.size + 1) rule after))
      | (.error error, after) => (.error error, after) := by
  have apart : (Lockstep.CompilerState.entered other wrapping.listKey).numbers.get?
      wrapping.ruleKey = none := by
    rw [Lockstep.CompilerState.entered, Dictionary.get?_insert, if_neg wrapping.ruleKey_ne_listKey,
      freshRule]
  have own : wrapping.wrapped.rule wrapping.place = wrapping.base.rule wrapping.place :=
    GrammarSource.rule_wrap wrapping.place (Nat.ne_of_lt wrapping.place_lt)
  have list : Lockstep.compileFresh wrapping.others engine
      (compileAt wrapping.others engine (depth + 1)) (.top wrapping.wrapped wrapping.wrapped)
      (some wrapping.base.rules.size) = _ :=
    (congrArg (compileRule _ _ _ _) (GrammarSource.rule_wrap_size ..)).trans
      (compileRule_list _ _ _ (by rw [Context.top, own, wrapping.noReference]))
  have rule : Lockstep.compileFresh wrapping.others engine (compileAt wrapping.others engine depth)
      (.top wrapping.wrapped wrapping.wrapped) (some wrapping.place) =
      compileRule (compileAt wrapping.others engine depth) wrapping.others engine
        (.top wrapping.wrapped wrapping.wrapped) (wrapping.base.rule wrapping.place) :=
    congrArg (compileRule (compileAt wrapping.others engine depth) wrapping.others engine
      (.top wrapping.wrapped wrapping.wrapped)) own
  have size : (Lockstep.CompilerState.entered other wrapping.listKey).rules.size =
    other.rules.size + 1 := Array.size_push ..
  rw [run_compileAt_fresh wrapping.others engine (depth + 1) _ _ wrapping.listKey rfl freshList,
    list, run_bind,
    run_compileAt_fresh wrapping.others engine depth _ _ wrapping.ruleKey rfl apart, rule, size]
  unfold listedState
  generalize (compileRule (compileAt wrapping.others engine depth) wrapping.others engine
    (.top wrapping.wrapped wrapping.wrapped) (wrapping.base.rule wrapping.place)).run.run
      (Lockstep.CompilerState.entered (Lockstep.CompilerState.entered other wrapping.listKey)
        wrapping.ruleKey) = result
  obtain ⟨_ | rule, after⟩ := result <;> rfl

omit engine in
theorem ruleKey_mem : wrapping.ruleKey ∈ wrapping.grammars.keys :=
  key_mem_keys (Table.mem_values wrapping.held) (by rintro _ ⟨⟩; exact wrapping.place_lt)

omit engine in
theorem wrapped_mem : wrapping.wrapped ∈ wrapping.others.values := by
  apply Table.mem_values
  rw [get?_others, wrapping.held, Option.map_some, moved_base]

omit engine in
theorem keys_mem_others :
    wrapping.ruleKey ∈ wrapping.others.keys ∧ wrapping.listKey ∈ wrapping.others.keys := by
  have size : wrapping.wrapped.rules.size = wrapping.base.rules.size + 1 := Array.size_push ..
  refine ⟨key_mem_keys wrapping.wrapped_mem ?_, key_mem_keys wrapping.wrapped_mem ?_⟩
  · rintro _ ⟨⟩
    rw [size]
    exact Nat.lt_succ_of_lt wrapping.place_lt
  · rintro _ ⟨⟩
    rw [size]
    exact Nat.lt_succ_self _

variable {wrapping engine} in
/-- What the rule holds leads to the same. -/
theorem inside_rule (state other : CompilerState) :
    (wrapping.onward engine state other).Inside
      ((Context.top wrapping.base wrapping.base).inside
        (wrapping.base.rule wrapping.place).repository)
      ((Context.top wrapping.wrapped wrapping.wrapped).inside
        (wrapping.base.rule wrapping.place).repository)
      (wrapping.base.rule wrapping.place) := by
  have fair := fair_top wrapping.held
  have moved := movedContext_top wrapping.held
  rw [moved_base] at moved
  exact {
    scopeName := rfl
    tried := fun inner member => by
      rw [← moved]
      exact fair.tried_matched member
    captured := fun inner member => by
      obtain ⟨same, captured⟩ := fair.captured_matched member
      rw [← moved]
      exact ⟨same, fun _ => captured⟩
    standsFor := fun text _ => by
      rw [← moved]
      exact (fair.inside wrapping.place).target_matched _ }

/-- A rule without a pattern is compiled to a list. -/
theorem compileRule_group {recurse : Recurse} {grammars : Loaded} {engine : Engine}
    {context : Context} {rule : RuleSource} {before after : CompilerState} {compiled : Rule}
    (noMatch : rule.matchPattern = none) (noStart : rule.beginPattern = none)
    (done : (compileRule recurse grammars engine context rule).run.run before =
      (.ok compiled, after)) : ∃ group, compiled = .group group := by
  unfold compileRule at done
  rw [noMatch, noStart] at done
  have done : (compileGroup recurse grammars (context.inside rule.repository) rule).run.run before =
    (.ok compiled, after) := done
  unfold compileGroup at done
  simp only at done
  split at done
  · obtain ⟨resolved, middle, _, rest⟩ := ok_of_run_bind done
    cases rest
    exact ⟨_, rfl⟩
  · obtain ⟨⟨patterns, incomplete⟩, middle, _, rest⟩ := ok_of_run_bind done
    cases rest
    exact ⟨_, rfl⟩

/-- The rule under its number, and under the same number the list, which holds the rule unless
nothing is left of it. -/
def Nested (start : RuleId) (state other : CompilerState) : Prop :=
  ∃ inside outside : GroupRule, state.rules[start]? = some (.group inside) ∧
    other.rules[start]? = some (.group outside) ∧
    (outside.patterns = [start + 1] ∨ outside.patterns = [] ∧ inside.patterns = [])

/-- A rule inside a list stands under the next number when both are defined. -/
theorem nested_defined {start : RuleId} {inside : GroupRule} {state other : CompilerState}
    (room : start < state.rules.size) (otherRoom : start + 1 < other.rules.size)
    (change : RuleId → RuleId) :
    Nested start (defined start (.group inside) state)
      (defined start (listOf (start + 1)
          (((defined (start + 1) ((Rule.group inside).mapIds change) other).rules[start + 1]?).getD
            .reserved).isHollow)
        (defined (start + 1) ((Rule.group inside).mapIds change) other)) := by
  have held : (defined (start + 1) ((Rule.group inside).mapIds change) other).rules[start + 1]? =
      some ((Rule.group inside).mapIds change) :=
    Array.getElem?_setIfInBounds_self_of_lt otherRoom
  rw [held, Option.getD_some, Rule.isHollow_mapIds]
  refine ⟨inside, _, Array.getElem?_setIfInBounds_self_of_lt room,
    Array.getElem?_setIfInBounds_self_of_lt ?_, ?_⟩
  · rw [defined, Array.size_setIfInBounds]
    exact Nat.lt_of_succ_lt otherRoom
  · cases hollow : (Rule.group inside).isHollow with
    | false => exact .inl rfl
    | true =>
      simp only [Rule.isHollow, Bool.and_eq_true, List.isEmpty_iff] at hollow
      exact .inr ⟨rfl, hollow.2⟩

variable {wrapping engine} in
/-- Numbering the rule, and numbering the list and the rule, leaves less without a number. -/
theorem unnumbered_entry (related : (wrapping.first engine).Related depth otherDepth state other) :
    unnumbered wrapping.grammars (wrapping.plainState state) + 1 < depth ∧
      unnumbered wrapping.others (wrapping.listedState other) + 2 < otherDepth := by
  obtain ⟨freshRule, otherFreshRule⟩ := related.kept wrapping.ruleKey fun asked => asked.1 rfl
  have freshList := (related.kept wrapping.listKey fun asked => asked.2 rfl).2
  have apart : (Lockstep.CompilerState.entered other wrapping.listKey).numbers.get?
      wrapping.ruleKey = none := by
    rw [Lockstep.CompilerState.entered, Dictionary.get?_insert, if_neg wrapping.ruleKey_ne_listKey,
      otherFreshRule]
    rfl
  have less : unnumbered wrapping.grammars (wrapping.plainState state) <
      unnumbered wrapping.grammars state :=
    unnumbered_insert_lt wrapping.ruleKey_mem freshRule state.rules.size
  have listed : unnumbered wrapping.others
      (Lockstep.CompilerState.entered other wrapping.listKey) <
      unnumbered wrapping.others other :=
    unnumbered_insert_lt wrapping.keys_mem_others.2 freshList other.rules.size
  have both : unnumbered wrapping.others (wrapping.listedState other) <
      unnumbered wrapping.others (Lockstep.CompilerState.entered other wrapping.listKey) :=
    unnumbered_insert_lt wrapping.keys_mem_others.1 apart _
  have enough : unnumbered wrapping.grammars state < depth := related.depth
  have otherEnough : unnumbered wrapping.others other < otherDepth := related.otherDepth
  omega

variable {wrapping engine} in
/-- The rule comes to the same on both sides, up to its number. -/
theorem rule_related (related : (wrapping.onward engine state other).Related depth otherDepth
      (wrapping.plainState state) (wrapping.listedState other))
    {result answer : Except CompileError Rule × CompilerState}
    (run : (compileRule (compileAt wrapping.grammars engine depth) wrapping.grammars engine
      (.top wrapping.base wrapping.base) (wrapping.base.rule wrapping.place)).run.run
      (wrapping.plainState state) = result)
    (otherRun : (compileRule (compileAt wrapping.others engine otherDepth) wrapping.others engine
      (.top wrapping.wrapped wrapping.wrapped) (wrapping.base.rule wrapping.place)).run.run
      (wrapping.listedState other) = answer) :
    (wrapping.onward engine state other).Related depth otherDepth result.2 answer.2 ∧
    answer.1 = result.1.map (Rule.mapIds (shiftFrom state.rules.size)) ∧
    ∀ rule, result.1 = .ok rule →
      (wrapping.onward engine state other).Whole result.2 rule ∧
      state.rules.size < result.2.rules.size ∧ ∃ group, rule = .group group := by
  have recursive := (wrapping.onward engine state other).pairs_compileAt depth otherDepth
  obtain ⟨later, kept, same, whole, _⟩ :=
    Lockstep.pairs_compileRule recursive (inside_rule state other) _ _ (.refl _) related
  subst run otherRun
  refine ⟨kept, same, fun rule done => ⟨whole rule done, ?_, ?_⟩⟩
  · have size : (wrapping.plainState state).rules.size = state.rules.size + 1 := Array.size_push ..
    exact Nat.lt_of_lt_of_le (size ▸ Nat.lt_succ_self _) later.size
  · exact compileRule_group wrapping.noMatch wrapping.noStart (Prod.ext done rfl)

variable {wrapping engine} in
/-- Both compile the rule, or fail in the same way, and go on in step. -/
theorem entry_related (related : (wrapping.first engine).Related (depthFor wrapping.grammars)
      (depthFor wrapping.others) state other) :
    let here := (compileAt wrapping.grammars engine (depthFor wrapping.grammars)
      (.top wrapping.base wrapping.base) (some wrapping.place)).run.run state
    let there := (compileAt wrapping.others engine (depthFor wrapping.others)
      (.top wrapping.wrapped wrapping.wrapped) (some wrapping.base.rules.size)).run.run other
    (wrapping.onward engine state other).Related (depthFor wrapping.grammars)
      (depthFor wrapping.others) here.2 there.2 ∧
    ((∃ error, here.1 = .error error ∧ there.1 = .error error) ∨
      here.1 = .ok state.rules.size ∧ there.1 = .ok state.rules.size ∧
        Nested state.rules.size here.2 there.2) := by
  have size : other.rules.size = state.rules.size := related.size
  obtain ⟨freshRule, otherFreshRule⟩ := related.kept wrapping.ruleKey fun asked => asked.1 rfl
  have freshList := (related.kept wrapping.listKey fun asked => asked.2 rfl).2
  obtain ⟨less, otherLess⟩ := unnumbered_entry related
  obtain ⟨depth, grammarsDepth⟩ : ∃ depth, depthFor wrapping.grammars = depth + 1 := ⟨_, rfl⟩
  obtain ⟨otherDepth, othersDepth⟩ : ∃ depth, depthFor wrapping.others = depth + 2 :=
    ⟨depthFor wrapping.others - 2, by omega⟩
  have onward : (wrapping.onward engine state other).Related depth otherDepth
      (wrapping.plainState state) (wrapping.listedState other) :=
    related_onward related (by omega) (by omega)
  rw [grammarsDepth, othersDepth]
  simp only
  rw [wrapping.run_rule engine depth freshRule,
    wrapping.run_list engine otherDepth otherFreshRule freshList, size]
  obtain ⟨⟨compiled, after⟩, run⟩ : ∃ result, (compileRule
    (compileAt wrapping.grammars engine depth) wrapping.grammars engine
    (.top wrapping.base wrapping.base) (wrapping.base.rule wrapping.place)).run.run
    (wrapping.plainState state) = result := ⟨_, rfl⟩
  obtain ⟨⟨answer, otherAfter⟩, otherRun⟩ : ∃ result, (compileRule
    (compileAt wrapping.others engine otherDepth) wrapping.others engine
    (.top wrapping.wrapped wrapping.wrapped) (wrapping.base.rule wrapping.place)).run.run
    (wrapping.listedState other) = result := ⟨_, rfl⟩
  obtain ⟨kept, rfl, whole⟩ := rule_related onward run otherRun
  have deeper {left right : CompilerState}
      (related : (wrapping.onward engine state other).Related depth otherDepth left right) :
      (wrapping.onward engine state other).Related (depth + 1) (otherDepth + 2) left right :=
    related.deeper (Nat.le_succ _) (Nat.le_add_right ..)
  rw [run, otherRun]
  cases compiled with
  | error error => exact ⟨deeper kept, .inl ⟨error, rfl, rfl⟩⟩
  | ok rule =>
    obtain ⟨⟨named, fits⟩, room, inside, rfl⟩ := whole rule rfl
    have both := kept.define room named fits
    have shifted : (wrapping.onward engine state other).rename state.rules.size =
      state.rules.size + 1 := shiftFrom_of_le (Nat.le_refl _)
    have otherRoom := kept.rename_lt room
    rw [shifted] at both otherRoom
    exact ⟨deeper (both.spare (shiftFrom_ne _) _),
      .inr ⟨rfl, rfl, nested_defined room otherRoom (shiftFrom state.rules.size)⟩⟩

end Entry

end Wrapping
end ScopeLexer.Grammar

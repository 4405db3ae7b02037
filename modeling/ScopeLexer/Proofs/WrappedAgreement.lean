import ScopeLexer.Proofs.GroupFlattening
import ScopeLexer.Proofs.RenumberedFinder
import ScopeLexer.Proofs.WrappedCompilation

/-! The grammar that is compiled from a grammar with a list for one of its injected rules. The
compilation is divided at the injection: what comes before it and what comes after it is
compiled in step. So the two compilations fail in the same way, or both succeed; and then the
grammars that they give differ in the numbers of their rules, and in the list. -/
namespace ScopeLexer.Grammar

open Pattern Regex

/-- Two compilations fail in the same way, with the same notes, or both succeed and what they
give is related. -/
inductive Agree (Holds : α → β → CompilerState → CompilerState → Prop) :
    Except CompileError α × CompilerState → Except CompileError β × CompilerState → Prop where
  | failed (error : CompileError) (journal : other.journal = state.journal) :
    Agree Holds (.error error, state) (.error error, other)
  | done (holds : Holds value result state other) :
    Agree Holds (.ok value, state) (.ok result, other)

theorem Agree.bind {Holds : α → β → CompilerState → CompilerState → Prop}
    {After : γ → δ → CompilerState → CompilerState → Prop} {first : CompileM α}
    {second : CompileM β} {next : α → CompileM γ} {otherNext : β → CompileM δ}
    {state other : CompilerState}
    (head : Agree Holds (first.run.run state) (second.run.run other))
    (tail : ∀ value result state other, Holds value result state other →
      Agree After ((next value).run.run state) ((otherNext result).run.run other)) :
    Agree After ((first >>= next).run.run state) ((second >>= otherNext).run.run other) := by
  rw [run_bind, run_bind]
  generalize first.run.run state = here at head
  generalize second.run.run other = there at head
  cases head with
  | failed error journal => exact .failed error journal
  | done holds => exact tail _ _ _ _ holds

/-- Computations that go in step agree, and let be what there was before them. -/
theorem Lockstep.Pairs.agree {lockstep : Lockstep} {depth otherDepth : Nat} {engine : Engine}
    {first : CompileM α} {second : CompileM β} {change : α → β}
    {Good : CompilerState → α → Prop} {state other : CompilerState}
    (pairs : lockstep.Pairs depth otherDepth state first second change Good)
    (keeps : Keeps engine state.rules.size first)
    (otherKeeps : Keeps engine other.rules.size second)
    (related : lockstep.Related depth otherDepth state other) :
    Agree (fun value result after otherAfter => result = change value ∧ Good after value ∧
      Grown engine state.rules.size state after ∧
      Grown engine other.rules.size other otherAfter ∧
      lockstep.Related depth otherDepth after otherAfter)
      (first.run.run state) (second.run.run other) := by
  obtain ⟨_, kept, same, good, _⟩ := pairs state other (.refl _) related
  have grown := keeps state (Nat.le_refl _)
  have otherGrown := otherKeeps other (Nat.le_refl _)
  rcases here : first.run.run state with ⟨error | value, after⟩
  all_goals
    rcases there : second.run.run other with ⟨otherError | result, otherAfter⟩
    all_goals rw [here, there] at kept same
    all_goals cases same
  · exact .failed _ kept.journal
  · rw [here] at good grown
    rw [there] at otherGrown
    exact .done ⟨rfl, good _ rfl, grown, otherGrown, kept⟩

/-- The grammar that a compilation comes to, with its root and its injections. -/
def compiled (scopeName : String) (value : RuleId × List Injection) (state : CompilerState) :
    CompiledGrammar where
  scopeName := scopeName
  root := value.1
  rules := state.rules
  patterns := state.patterns.map CachedPattern.pattern
  injections := value.2

theorem compile_eq (scopeName : String) (grammars : Loaded) (injectors : List String)
    (engine : Engine) (journal : Journal) :
    compile scopeName grammars injectors engine journal =
      match (compileAll scopeName grammars injectors engine).run.run { journal := journal } with
      | (.error error, state) => (.error error, state.journal)
      | (.ok value, state) => (.ok ⟨compiled scopeName value state, state.patterns⟩,
          state.journal) := by
  unfold compile compiled
  generalize (compileAll scopeName grammars injectors engine).run.run { journal := journal } = run
  obtain ⟨_ | _, _⟩ := run <;> rfl

theorem Rule.patterns_subset_ids (rule : Rule) : rule.patterns ⊆ rule.ids := by
  cases rule with
  | group => exact List.Subset.refl _
  | region | block => exact List.subset_append_right ..
  | single | capture | reserved => exact List.nil_subset _

/-- Compiles the rules that a grammar injects into itself, each with its selectors. -/
def compileEntries (recurse : Recurse) (grammar : GrammarSource)
    (entries : List (String × Place)) : CompileM (List (List Injection)) :=
  entries.mapM fun (selector, place) => do
    return injectionsOf selector (← recurse (.top grammar grammar) (some place))

/-- A compilation, divided at an injection. -/
theorem compileAll_divided {scopeName : String} {grammars : Loaded} {grammar : GrammarSource}
    (held : grammars.get? scopeName = some grammar) {before after : List (String × Place)}
    {selector : String} {place : Place}
    (injections : grammar.injections = some ⟨before ++ (selector, place) :: after⟩)
    (injectors : List String) (engine : Engine) :
    compileAll scopeName grammars injectors engine = (do
      let recurse := compileAt grammars engine (depthFor grammars)
      let root ← recurse (.top grammar grammar) none
      let front ← compileEntries recurse grammar before
      let id ← recurse (.top grammar grammar) (some place)
      let back ← compileEntries recurse grammar after
      let injected ← compileInjectors recurse grammars grammar injectors
      return (root,
        sortInjections ((front ++ injectionsOf selector id :: back).flatten ++ injected))) := by
  unfold compileAll compileOwnInjections compileEntries
  rw [held]
  simp only [injections, Option.map_some, Option.getD_some, List.mapM_append, List.mapM_cons,
    bind_assoc, pure_bind]

namespace Wrapping

variable (wrapping : Wrapping) (engine : Engine) (injectors : List String)

/-- The injections of the other grammar, with the list in the place of the rule. -/
theorem injections_wrapped : wrapping.wrapped.injections =
    some ⟨wrapping.before ++ (wrapping.selector, wrapping.base.rules.size) :: wrapping.after⟩ := by
  have same (entries : List (String × Place))
      (free : ∀ number ∈ entries.map Prod.snd, wrapping.Free number) :
      (entries.map fun (key, held) => (key, if held = wrapping.place then wrapping.base.rules.size
        else held)) = entries := by
    apply (List.map_congr_left ?_).trans (List.map_id _)
    intro entry member
    simp only [if_neg (free entry.2 (List.mem_map_of_mem member)).1, id_eq]
  have front := same wrapping.before fun number member => wrapping.free_of_elsewhere (by
    simp only [elsewhere, List.mem_append]
    exact .inl (.inl (.inl (.inr member))))
  have back := same wrapping.after fun number member => wrapping.free_of_elsewhere (by
    simp only [elsewhere, List.mem_append]
    exact .inl (.inl (.inr member)))
  simp only [wrapped, GrammarSource.wrap, wrapping.injections, Option.map_some, Table.map,
    List.map_append, List.map_cons, if_true, front, back]

variable {wrapping engine injectors}

theorem Nested.grown {start : RuleId} {state other after otherAfter : CompilerState}
    (nested : Nested start state other) (grown : Grown engine state.rules.size state after)
    (otherGrown : Grown engine other.rules.size other otherAfter) :
    Nested start after otherAfter := by
  obtain ⟨inside, outside, here, there, holds⟩ := nested
  refine ⟨inside, outside, ?_, ?_, holds⟩
  · rw [grown.rules start (Array.getElem?_eq_some_iff.mp here).1, here]
  · rw [otherGrown.rules start (Array.getElem?_eq_some_iff.mp there).1, there]

theorem plain_first : (wrapping.first engine).Plain :=
  ⟨fun _ => rfl, fun _ => trivial, fun _ => rfl, fun _ => rfl⟩

/-- The other injections of the grammar are compiled in step. -/
theorem node_entry {entry : String × Place} (member : entry ∈ wrapping.before ++ wrapping.after) :
    wrapping.Node (.top wrapping.base wrapping.base) (.top wrapping.wrapped wrapping.wrapped)
      (some entry.2) := by
  have node := node_top wrapping.held
  rw [moved_base] at node
  refine ⟨node.fair, node.other, ?_⟩
  rintro _ ⟨⟩ _
  apply wrapping.free_of_elsewhere
  simp only [elsewhere, List.mem_append]
  rcases List.mem_append.mp member with front | back
  · exact .inl (.inl (.inl (.inr (List.mem_map_of_mem front))))
  · exact .inl (.inl (.inr (List.mem_map_of_mem back)))

/-- A grammar that is injected into the grammar is compiled in step. -/
theorem injector_matched {lockstep : Lockstep} (same : lockstep.Node = wrapping.Node)
    (injector : String) :
    lockstep.InjectorMatched wrapping.base wrapping.wrapped (wrapping.grammars.get? injector)
      (wrapping.others.get? injector) := by
  rw [get?_others]
  cases found : wrapping.grammars.get? injector with
  | none => exact .missing
  | some injected =>
    refine .injected ?_ (same ▸ node_top found)
    unfold moved
    split
    next here =>
      rw [← wrapping.keyed _ _ found, here, wrapping.held] at found
      cases found
      rfl
    next => rfl

variable (wrapping engine) in
/-- What the two compilations come to. The number of the list is that of the rule, and all
that was compiled later has a number that is one more. -/
structure Settled (start : RuleId) (value result : RuleId × List Injection)
    (state other : CompilerState) : Prop where
  related : ∃ kept otherKept, (wrapping.second engine start kept otherKept).Related
    (depthFor wrapping.grammars) (depthFor wrapping.others) state other
  nested : Nested start state other
  root : result.1 = value.1
  below : value.1 < start
  injections : result.2 = value.2.map (Injection.mapId (shiftFrom (start + 1)))

theorem get?_others_base :
    wrapping.others.get? wrapping.base.scopeName = some wrapping.wrapped := by
  rw [get?_others, wrapping.held, Option.map_some, moved_base]

/-- Injections whose rules are below a number keep them. -/
theorem mapId_of_lt {start : RuleId} {lists : List (List Injection)}
    (below : ∀ list ∈ lists, ∀ injection ∈ list, injection.rule < start) :
    lists.map (List.map (Injection.mapId (shiftFrom (start + 1)))) = lists := by
  apply (List.map_congr_left ?_).trans (List.map_id _)
  intro list member
  apply (List.map_congr_left ?_).trans (List.map_id _)
  intro injection among
  rw [Injection.mapId, shiftFrom_of_lt (Nat.lt_succ_of_lt (below list member injection among))]
  rfl

/-- Injections whose rules have been compiled in step have the numbers that go with these. -/
theorem mapId_of_ne {start : RuleId} {injections : List Injection}
    (apart : ∀ injection ∈ injections, injection.rule ≠ start) :
    injections.map (Injection.mapId (shiftFrom start)) =
      injections.map (Injection.mapId (shiftFrom (start + 1))) := by
  apply List.map_congr_left
  intro injection among
  rw [Injection.mapId, Injection.mapId, shiftFrom_succ (apart injection among)]

/-- The injections of the one compilation, with the numbers that the other has for their rules. -/
theorem sortInjections_shifted {start : RuleId} {selector : String}
    {front back : List (List Injection)} {injected : List Injection}
    (below : ∀ list ∈ front, ∀ injection ∈ list, injection.rule < start)
    (apart : ∀ list ∈ back, ∀ injection ∈ list, injection.rule ≠ start)
    (others : ∀ injection ∈ injected, injection.rule ≠ start) :
    sortInjections ((front ++ injectionsOf selector start ::
          back.map (List.map (Injection.mapId (shiftFrom start)))).flatten ++
        injected.map (Injection.mapId (shiftFrom start))) =
      (sortInjections ((front ++ injectionsOf selector start :: back).flatten ++ injected)).map
        (Injection.mapId (shiftFrom (start + 1))) := by
  have entry : (injectionsOf selector start).map (Injection.mapId (shiftFrom (start + 1))) =
      injectionsOf selector start := by
    rw [map_injectionsOf, shiftFrom_of_lt (Nat.lt_succ_self _)]
  have later : back.map (List.map (Injection.mapId (shiftFrom start))) =
      back.map (List.map (Injection.mapId (shiftFrom (start + 1)))) :=
    List.map_congr_left fun list member => mapId_of_ne (apart list member)
  simp only [map_sortInjections, List.map_append, List.map_flatten, List.map_cons, entry, later,
    mapId_of_ne others, mapId_of_lt below]

/-- The rule and the list are given the same number. -/
theorem entry_agree {state other : CompilerState}
    (related : (wrapping.first engine).Related (depthFor wrapping.grammars)
      (depthFor wrapping.others) state other) :
    Agree (fun id result after otherAfter => id = state.rules.size ∧ result = state.rules.size ∧
        Nested state.rules.size after otherAfter ∧
        (wrapping.onward engine state other).Related (depthFor wrapping.grammars)
          (depthFor wrapping.others) after otherAfter)
      ((compileAt wrapping.grammars engine (depthFor wrapping.grammars)
        (.top wrapping.base wrapping.base) (some wrapping.place)).run.run state)
      ((compileAt wrapping.others engine (depthFor wrapping.others)
        (.top wrapping.wrapped wrapping.wrapped) (some wrapping.base.rules.size)).run.run other) := by
  have entered := entry_related related
  simp only at entered
  generalize (compileAt wrapping.grammars engine (depthFor wrapping.grammars)
    (.top wrapping.base wrapping.base) (some wrapping.place)).run.run state = here at entered ⊢
  generalize (compileAt wrapping.others engine (depthFor wrapping.others)
    (.top wrapping.wrapped wrapping.wrapped) (some wrapping.base.rules.size)).run.run other = there
    at entered ⊢
  obtain ⟨here, after⟩ := here
  obtain ⟨there, otherAfter⟩ := there
  obtain ⟨kept, ⟨error, rfl, rfl⟩ | ⟨rfl, rfl, nested⟩⟩ := entered
  · exact .failed error kept.journal
  · exact .done ⟨rfl, rfl, nested, kept⟩

variable (wrapping engine injectors) in
/-- The compilations without and with the list agree. -/
theorem agree_compileAll (journal : Journal) :
    Agree (fun value result state other => ∃ start,
        wrapping.Settled engine start value result state other)
      ((compileAll wrapping.base.scopeName wrapping.grammars injectors engine).run.run
        { journal := journal })
      ((compileAll wrapping.base.scopeName wrapping.others injectors engine).run.run
        { journal := journal }) := by
  have recursive : (wrapping.first engine).Recursive (depthFor wrapping.grammars)
      (depthFor wrapping.others)
      (compileAt wrapping.grammars engine (depthFor wrapping.grammars))
      (compileAt wrapping.others engine (depthFor wrapping.others)) :=
    (wrapping.first engine).pairs_compileAt _ _
  have root := node_top wrapping.held
  rw [moved_base] at root
  rw [compileAll_divided wrapping.held wrapping.injections,
    compileAll_divided get?_others_base wrapping.injections_wrapped]
  apply Agree.bind ((recursive _ _ _ _ root).agree (keeps_compileAt _ _ _ _)
    (keeps_compileAt _ _ _ _) (Lockstep.related_start plain_first journal))
  rintro root _ rooted otherRooted ⟨rfl, ⟨rootValid, _⟩, _, _, related⟩
  apply Agree.bind ((Lockstep.pairs_inject recursive fun entry member =>
    node_entry (List.mem_append_left _ member)).agree (keeps_inject _ _ _ _ _)
    (keeps_inject _ _ _ _ _) related)
  rintro front _ fronted otherFronted ⟨rfl, frontValid, grown, _, related⟩
  apply Agree.bind (entry_agree related)
  rintro _ _ entered otherEntered ⟨rfl, rfl, nested, related⟩
  have recursive : (wrapping.onward engine fronted otherFronted).Recursive
      (depthFor wrapping.grammars) (depthFor wrapping.others)
      (compileAt wrapping.grammars engine (depthFor wrapping.grammars))
      (compileAt wrapping.others engine (depthFor wrapping.others)) :=
    (wrapping.onward engine fronted otherFronted).pairs_compileAt _ _
  apply Agree.bind ((Lockstep.pairs_inject recursive fun entry member =>
    node_entry (List.mem_append_right _ member)).agree (keeps_inject _ _ _ _ _)
    (keeps_inject _ _ _ _ _) related)
  rintro back _ _ _ ⟨rfl, backValid, backGrown, otherBackGrown, related⟩
  apply Agree.bind ((Lockstep.pairs_compileInjectors recursive fun injector _ =>
    injector_matched rfl injector).agree (keeps_compileInjectors _ _ _ _ _)
    (keeps_compileInjectors _ _ _ _ _) related)
  rintro injected _ _ _ ⟨rfl, injectedValid, lastGrown, otherLastGrown, related⟩
  refine .done ⟨fronted.rules.size, ⟨_, _, related⟩, ?_, rfl, ?_, ?_⟩
  · exact (nested.grown backGrown otherBackGrown).grown lastGrown otherLastGrown
  · exact Nat.lt_of_lt_of_le rootValid grown.size
  · have plain : front.map (List.map (Injection.mapId (wrapping.first engine).rename)) = front := by
      have same : Injection.mapId (wrapping.first engine).rename = id := rfl
      rw [same, List.map_id_fun, List.map_id_fun, id_eq]
    rw [plain]
    exact sortInjections_shifted (fun list member injection among =>
      (frontValid list member injection among).1) (fun list member injection among =>
      (backValid list member injection among).2) fun injection among =>
      (injectedValid injection among).2

namespace Settled

variable {start : RuleId} {value result : RuleId × List Injection} {state other : CompilerState}
  (settled : wrapping.Settled engine start value result state other)
include settled

theorem start_lt : start < state.rules.size := by
  obtain ⟨_, _, held, _⟩ := settled.nested
  exact (Array.getElem?_eq_some_iff.mp held).1

theorem size : other.rules.size = state.rules.size + 1 := by
  obtain ⟨_, _, related⟩ := settled.related
  exact related.size.trans (shiftFrom_of_le (Nat.le_of_lt settled.start_lt))

theorem bounds (id : RuleId) :
    shiftFrom (start + 1) id < other.rules.size ↔ id < state.rules.size := by
  rw [settled.size]
  exact shiftFrom_lt_iff settled.start_lt

/-- What rules name is not the rule that is injected. -/
theorem apart {rule : Rule} (member : rule ∈ state.rules) {id : RuleId} (among : id ∈ rule.ids) :
    id ≠ start := by
  obtain ⟨_, _, related⟩ := settled.related
  exact (related.named rule member id among).2

/-- A rule is the same under its other number. -/
theorem rules {id : RuleId} (bound : id < state.rules.size) :
    other.rules[shiftFrom start id]? =
      state.rules[id]?.map (Rule.mapIds (shiftFrom (start + 1))) := by
  obtain ⟨_, _, related⟩ := settled.related
  refine (related.rules id bound).trans ?_
  rw [Array.getElem?_eq_getElem bound, Option.map_some, Option.map_some]
  congr 1
  exact Rule.mapIds_congr fun held among =>
    shiftFrom_succ (settled.apart (Array.getElem_mem bound) among)

variable (scopeName : String)

/-- All rules but the one that is injected are the same, and do not name it. -/
theorem carries : CompiledGrammar.Carries (compiled scopeName value state)
    (compiled scopeName result other) (shiftFrom (start + 1)) (· ≠ start) where
  injective := shiftFrom_injective _
  bounds := settled.bounds
  rule id shown := by
    unfold CompiledGrammar.rule compiled
    simp only
    by_cases bound : id < state.rules.size
    · rw [← shiftFrom_succ shown, settled.rules bound, Array.getElem?_eq_getElem bound]
      rfl
    · have above := mt (settled.bounds id).mp bound
      rw [Array.getElem?_eq_none (Nat.le_of_not_lt bound),
        Array.getElem?_eq_none (Nat.le_of_not_lt above)]
      rfl
  inner id held shown among := by
    unfold CompiledGrammar.rule compiled at among
    by_cases bound : id < state.rules.size
    · rw [Array.getElem?_eq_getElem bound, Option.getD_some] at among
      exact settled.apart (Array.getElem_mem bound) (Rule.patterns_subset_ids _ among)
    · rw [Array.getElem?_eq_none (Nat.le_of_not_lt bound)] at among
      cases among

/-- The compiled grammars differ in numbers, and in the list. -/
theorem renumbering : Nonempty (Renumbering (compiled scopeName value state)
    (compiled scopeName result other)) := by
  have carries := settled.carries scopeName
  obtain ⟨inside, outside, here, there, holds⟩ := settled.nested
  have group : (compiled scopeName value state).rule start = .group inside := by
    rw [CompiledGrammar.rule, compiled, here, Option.getD_some]
  have wrapper : (compiled scopeName result other).rule (shiftFrom (start + 1) start) =
      .group outside := by
    rw [shiftFrom_of_lt (Nat.lt_succ_self _), CompiledGrammar.rule, compiled, there,
      Option.getD_some]
  have wrapped : (compiled scopeName result other).rule (start + 1) =
      .group { inside with patterns := inside.patterns.map (shiftFrom (start + 1)) } := by
    have rules := settled.rules settled.start_lt
    rw [shiftFrom_of_le (Nat.le_refl _), here, Option.map_some] at rules
    rw [CompiledGrammar.rule, compiled, rules, Option.getD_some]
    rfl
  exact ⟨{
    rename := shiftFrom (start + 1)
    injective := shiftFrom_injective _
    scopeName := rfl
    patterns := by
      obtain ⟨_, _, related⟩ := settled.related
      simp only [compiled, related.patterns]
    size := Nat.le_of_lt (settled.size ▸ Nat.lt_succ_self _)
    root := by
      rw [compiled, compiled, shiftFrom_of_lt (Nat.lt_succ_of_lt settled.below), settled.root]
    injections := settled.injections
    rule := fun id => by
      by_cases injected : id = start
      · exact .inr ⟨inside, outside, injected ▸ group, injected ▸ wrapper⟩
      · exact .inl (carries.rule id injected)
    candidates := fun id => by
      by_cases injected : id = start
      · subst injected
        exact carries.candidates_wrapped group
          (fun held among => settled.apart (Array.mem_of_getElem? here) among) wrapper
          (shiftFrom_ne _) wrapped rfl holds
      · exact carries.candidates injected }⟩

end Settled

/-- The compilations without and with the list fail in the same way, or both succeed, with the
same patterns and with grammars that differ in numbers. -/
theorem compile_wrapped (engine : Engine) (injectors : List String) (journal : Journal) :
    let plain := compile wrapping.base.scopeName wrapping.grammars injectors engine journal
    let listed := compile wrapping.base.scopeName wrapping.others injectors engine journal
    listed.2 = plain.2 ∧
    ((∃ error, plain.1 = .error error ∧ listed.1 = .error error) ∨
      ∃ compilation other, plain.1 = .ok compilation ∧ listed.1 = .ok other ∧
        other.patterns = compilation.patterns ∧
        Nonempty (Renumbering compilation.grammar other.grammar)) := by
  have agree := wrapping.agree_compileAll engine injectors journal
  simp only [compile_eq]
  generalize (compileAll wrapping.base.scopeName wrapping.grammars injectors engine).run.run
    { journal := journal } = here at agree
  generalize (compileAll wrapping.base.scopeName wrapping.others injectors engine).run.run
    { journal := journal } = there at agree
  cases agree with
  | failed error journal => exact ⟨journal, .inl ⟨error, rfl, rfl⟩⟩
  | done settled =>
    obtain ⟨start, settled⟩ := settled
    obtain ⟨_, _, related⟩ := settled.related
    exact ⟨related.journal, .inr ⟨_, _, rfl, rfl, related.patterns, settled.renumbering _⟩⟩

end Wrapping
end ScopeLexer.Grammar

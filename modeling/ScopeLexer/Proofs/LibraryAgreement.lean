import ScopeLexer.Proofs.DependencyRounds

/-! Loading a grammar from two libraries. They have to agree only about the grammars that
can come up: a set of scope names that holds the one asked for, and all that its grammars
name and have injected. Then every round looks up the same, walks over the same and asks
for the same. More rounds than are needed change nothing. -/
namespace ScopeLexer.Grammar

/-- The grammars that the rules of a grammar name are all of some set. -/
def NamesWithin (Within : String → Prop) (grammar : GrammarSource) : Prop :=
  ∀ rule ∈ grammar.rules, ∀ text dependency, rule.reference = some text →
    (Reference.ofText text).dependency? = some dependency → Within dependency.scopeName

section InStep

variable {Related : σ → τ → Prop}

/-- Two computations that go in step: from related states they give the same, with some
property, and the states stay related. -/
def InStep (Related : σ → τ → Prop) (first : ExceptT Error (StateM σ) α)
    (second : ExceptT Error (StateM τ) α) (Good : α → Prop) : Prop :=
  ∀ source other, Related source other → ∃ result after otherAfter,
    first.run.run source = (result, after) ∧ second.run.run other = (result, otherAfter) ∧
      Related after otherAfter ∧ ∀ value, result = .ok value → Good value

theorem inStep_pure {Good : α → Prop} (good : Good value) :
    InStep Related (pure value) (pure value) Good := by
  intro source other related
  refine ⟨.ok value, source, other, rfl, rfl, related, ?_⟩
  rintro _ ⟨⟩
  exact good

theorem inStep_bind {first : ExceptT Error (StateM σ) α} {second : ExceptT Error (StateM τ) α}
    {next : α → ExceptT Error (StateM σ) β} {otherNext : α → ExceptT Error (StateM τ) β}
    {Middle : α → Prop} {Good : β → Prop} (head : InStep Related first second Middle)
    (tail : ∀ value, Middle value → InStep Related (next value) (otherNext value) Good) :
    InStep Related (first >>= next) (second >>= otherNext) Good := by
  intro source other related
  obtain ⟨result, after, otherAfter, run, otherRun, related, middle⟩ := head source other related
  rw [run_bind, run_bind, run, otherRun]
  cases result with
  | error error => exact ⟨.error error, after, otherAfter, rfl, rfl, related, by rintro _ ⟨⟩⟩
  | ok value => exact tail value (middle value rfl) after otherAfter related

/-- What is made of the two states may differ only where the computations do not look. -/
theorem inStep_get {next : σ → ExceptT Error (StateM σ) α} {otherNext : τ → ExceptT Error (StateM τ) α}
    {Good : α → Prop}
    (tail : ∀ source other, Related source other →
      InStep Related (next source) (otherNext other) Good) :
    InStep Related (get >>= next) (get >>= otherNext) Good := by
  intro source other related
  rw [run_bind, run_bind]
  exact tail source other related source other related

end InStep

/-- Two libraries that agree about a set of scope names, in related states. Whatever is
named or injected where they agree is in the set. -/
structure Agreement (Related : σ → τ → Prop) (Within : String → Prop) (first : Library σ)
    (second : Library τ) : Prop where
  lookup : ∀ scopeName, Within scopeName →
    InStep Related (first.lookup scopeName) (second.lookup scopeName) fun found =>
      ∀ grammar, found = some grammar → NamesWithin Within grammar
  injectors : ∀ source other scopeName, Related source other → Within scopeName →
    second.injectors scopeName other = first.injectors scopeName source ∧
      ∀ injector ∈ first.injectors scopeName source, Within injector

/-- Grammars among which one is, and that name only what is in a set. -/
structure Gathered (Within : String → Prop) (base : GrammarSource) (loaded : Loaded) : Prop where
  base : ∃ scopeName, loaded.get? scopeName = some base
  closed : ∀ grammar ∈ loaded.values, NamesWithin Within grammar

namespace Gathered

variable {Within : String → Prop} {base : GrammarSource} {loaded : Loaded}

theorem insert (gathered : Gathered Within base loaded) (absent : loaded.get? scopeName = none)
    (closed : NamesWithin Within grammar) :
    Gathered Within base (loaded.insert scopeName grammar) where
  base := by
    obtain ⟨other, held⟩ := gathered.base
    exact ⟨other, Catalogue.kept_insert absent other base held⟩
  closed held member := by
    rcases Table.mem_values_insert member with rfl | old
    · exact closed
    · exact gathered.closed held old

/-- The walk over what is gathered. It notes only what is in the set. -/
def setting (gathered : Gathered Within base loaded) : WalkSetting where
  base := base
  loaded := loaded
  Named dependency := Within dependency.scopeName
  baseLoaded := by
    obtain ⟨scopeName, held⟩ := gathered.base
    exact Table.mem_values held
  names grammar member rule among text dependency refers names _ _ :=
    gathered.closed grammar member rule among text dependency refers names

theorem passage_dependency (gathered : Gathered Within base loaded)
    (held : loaded.get? scopeName = some grammar) (collector : Collector) (dependency : Dependency) :
    gathered.setting.Passage collector
      (walkDependency (walkRules (loaded.ruleCount + 1)) base grammar collector dependency) := by
  have walks := gathered.setting.walks_walkRules (loaded.ruleCount + 1)
  have room : gathered.setting.unvisited collector < loaded.ruleCount + 1 :=
    Nat.lt_succ_of_le (WalkSetting.unvisited_le_ruleCount collector)
  have member := Table.mem_values held
  cases dependency with
  | whole scopeName => exact (walks.top member room).1
  | part scopeName name =>
    exact (walks.named (fun _ found =>
      WalkSetting.reaches_start member (WalkSetting.mem_startPlaces_of_lookup found)) room).1

/-- What a round comes to need is in the set. -/
theorem collectNeeded_within (gathered : Gathered Within base loaded) {library : Library σ}
    {source : σ} {queue : List Dependency}
    (injected : ∀ dependency ∈ queue,
      ∀ injector ∈ library.injectors dependency.scopeName source, Within injector) :
    ∀ dependency ∈ collectNeeded library base loaded queue source, Within dependency.scopeName := by
  intro dependency among
  unfold collectNeeded at among
  refine ((gathered.setting.passage_foldl queue ?_ {}).named dependency
    (List.mem_reverse.mp among)).resolve_left (by simp)
  intro collector dependency waiting
  split
  next => exact .refl _
  next grammar held =>
    refine (gathered.passage_dependency held collector dependency).trans
      (WalkSetting.passage_foldl _ ?_ _)
    intro collector injector member
    exact WalkSetting.passage_add (injected dependency waiting injector member)

end Gathered

/-- What waits after asking for several things waited before, or is one of them. -/
theorem Requests.mem_queue_askAll {requests : Requests} {needed : List Dependency}
    (member : dependency ∈ (needed.foldl Requests.ask requests).queue) :
    dependency ∈ requests.queue ∨ dependency ∈ needed := by
  induction needed generalizing requests with
  | nil => exact .inl member
  | cons first needed ih =>
    rcases ih member with old | later
    · rcases requests.ask_cases first with ⟨_, same⟩ | ⟨_, queue, _⟩
      · rw [same] at old
        exact .inl old
      · rw [queue, List.mem_append, List.mem_singleton] at old
        exact old.imp_right fun same => List.mem_cons.mpr (.inl same)
    · exact .inr (List.mem_cons_of_mem _ later)

namespace Agreement

variable {Related : σ → τ → Prop} {Within : String → Prop} {first : Library σ} {second : Library τ}
  (agreement : Agreement Related Within first second)
include agreement

/-- Two libraries that agree on the names within answer a queue of requests in step. -/
theorem inStep_lookupAll {queue : List Dependency}
    (within : ∀ dependency ∈ queue, Within dependency.scopeName)
    (gathered : Gathered Within base loaded) :
    InStep Related (lookupAll first queue loaded) (lookupAll second queue loaded)
      (Gathered Within base) := by
  induction queue generalizing loaded with
  | nil => exact inStep_pure gathered
  | cons dependency queue ih =>
    have later (other : Dependency) (among : other ∈ queue) : Within other.scopeName :=
      within other (List.mem_cons_of_mem _ among)
    rw [lookupAll, lookupAll]
    split
    next => exact ih later gathered
    next absent =>
      have absent : loaded.get? dependency.scopeName = none := by
        simpa [Table.contains] using absent
      apply inStep_bind (agreement.lookup _ (within dependency List.mem_cons_self))
      intro found closed
      cases found with
      | none => exact ih later gathered
      | some grammar => exact ih later (gathered.insert absent (closed grammar rfl))

/-- Both libraries lead to the same needs. -/
theorem collectNeeded_eq (related : Related source other) {queue : List Dependency}
    (within : ∀ dependency ∈ queue, Within dependency.scopeName) (base : GrammarSource)
    (loaded : Loaded) :
    collectNeeded second base loaded queue other = collectNeeded first base loaded queue source := by
  unfold collectNeeded
  refine congrArg (fun collector : Collector => collector.needed.reverse) (List.foldl_ext _ _ _ ?_)
  intro collector dependency among
  rw [(agreement.injectors source other _ related (within dependency among)).1]

/-- Two libraries that agree on the names within load in step, round for round. -/
theorem inStep_loadRounds (rounds : Nat) {requests : Requests}
    (within : ∀ dependency ∈ requests.queue, Within dependency.scopeName)
    (gathered : Gathered Within base loaded) :
    InStep Related (loadRounds first base rounds requests loaded)
      (loadRounds second base rounds requests loaded) fun _ => True := by
  induction rounds generalizing requests loaded with
  | zero => exact inStep_pure trivial
  | succ rounds ih =>
    rw [loadRounds, loadRounds]
    split
    next => exact inStep_pure trivial
    next =>
      apply inStep_bind (agreement.inStep_lookupAll within gathered)
      intro loaded gathered
      apply inStep_get
      intro source other related
      rw [agreement.collectNeeded_eq related within]
      refine ih ?_ gathered
      intro dependency among
      rcases Requests.mem_queue_askAll among with nothing | needed
      · cases nothing
      · exact gathered.collectNeeded_within (fun dependency waiting =>
          (agreement.injectors source other _ related (within dependency waiting)).2) _ needed

/-- A grammar is loaded alike from both libraries. -/
theorem inStep_loadDependencies (rounds : Nat) (within : Within scopeName) :
    InStep Related (loadDependencies first rounds scopeName)
      (loadDependencies second rounds scopeName) fun _ => True := by
  unfold loadDependencies
  apply inStep_bind (agreement.lookup scopeName within)
  intro found closed
  cases found with
  | none => exact inStep_pure trivial
  | some grammar =>
    have gathered : Gathered Within grammar (Table.empty.insert scopeName grammar) := by
      refine ⟨⟨scopeName, by rw [Table.get?_insert, if_pos rfl]⟩, fun held member => ?_⟩
      rcases Table.mem_values_insert member with rfl | nothing
      · exact closed held rfl
      · cases nothing
    have waiting : ∀ dependency ∈ [Dependency.whole scopeName], Within dependency.scopeName :=
      List.forall_mem_singleton.mpr within
    exact inStep_bind (agreement.inStep_loadRounds rounds waiting gathered)
      fun _ _ => inStep_pure trivial

end Agreement

namespace Catalogue

variable {catalogue : Catalogue} {library : Library σ} {source : σ}

/-- Once there are enough rounds, more change nothing. -/
theorem loadRounds_stable (serves : catalogue.Serves library source)
    (between : catalogue.Between processed requests loaded)
    (enough : catalogue.askable.length < processed.length + rounds) (more : rounds ≤ other) :
    (loadRounds library catalogue.base other requests loaded).run.run source =
      (loadRounds library catalogue.base rounds requests loaded).run.run source := by
  induction rounds generalizing other processed requests loaded with
  | zero =>
    have bound := between.tracks.length_le
    omega
  | succ rounds ih =>
    obtain ⟨other, rfl⟩ : ∃ fewer, other = fewer + 1 := ⟨other - 1, by omega⟩
    rw [loadRounds, loadRounds]
    split
    next => rfl
    next busy =>
      obtain ⟨more, run, next⟩ := between.round serves
      rw [run_bind, run_bind, run]
      have waiting : 0 < requests.queue.length :=
        List.length_pos_iff.mpr fun empty => busy (List.isEmpty_iff.mpr empty)
      exact ih next (by rw [List.length_append]; omega) (by omega)

theorem loadDependencies_stable (serves : catalogue.Serves library source)
    (enough : catalogue.askable.length < rounds) (more : rounds ≤ other) :
    (loadDependencies library other catalogue.base.scopeName).run.run source =
      (loadDependencies library rounds catalogue.base.scopeName).run.run source := by
  rw [loadDependencies, loadDependencies, run_bind, run_bind, serves.lookup, catalogue.baseHeld]
  simp only
  rw [run_bind, run_bind,
    loadRounds_stable serves catalogue.between_start (by simpa using enough) more]

end Catalogue

end ScopeLexer.Grammar

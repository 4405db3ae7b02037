import Mathlib.Data.List.Perm.Subperm
import ScopeLexer.Proofs.DependencyWalk

/-! The rounds in which grammars are loaded. A round looks up what is asked for, walks
over it and asks for what is named there. Everything is asked for once, and there is
only so much that rules and injections name; so the rounds come to an end, and then
all that was asked for has been walked over, and all that was met has been asked for,
if not by itself then with the whole grammar that it is in. -/
namespace ScopeLexer

namespace Table

/-- An entry put in is found under its key; the other keys lead where they did. -/
theorem lookup_insertEntry (key asked : String) (value : α) (entries : List (String × α)) :
    (insertEntry key value entries).lookup asked =
      if asked = key then some value else entries.lookup asked := by
  induction entries with
  | nil => exact Dictionary.lookup_entry asked key value []
  | cons entry rest ih =>
    obtain ⟨other, held⟩ := entry
    unfold insertEntry
    split
    next same =>
      subst same
      by_cases here : asked = key <;> simp [Dictionary.lookup_entry, here]
    next differ =>
      split
      · simp only [Dictionary.lookup_entry]
      · by_cases here : asked = other
        · simp [here, Ne.symm differ]
        · simp [Dictionary.lookup_entry, here, ih]

/-- The value just written is under its key, and the other keys keep theirs. -/
theorem get?_insert (table : Table α) (key asked : String) (value : α) :
    (table.insert key value).get? asked = if asked = key then some value else table.get? asked :=
  lookup_insertEntry key asked value table.entries

/-- What is in the entries afterwards is the new one, or was there. -/
theorem mem_insertEntry {key : String} {value : α} {entries : List (String × α)}
    (member : entry ∈ insertEntry key value entries) : entry = (key, value) ∨ entry ∈ entries := by
  induction entries with
  | nil => exact .inl (List.mem_singleton.mp member)
  | cons first rest ih =>
    obtain ⟨other, held⟩ := first
    unfold insertEntry at member
    split at member
    · exact (List.mem_cons.mp member).imp_right (List.mem_cons_of_mem _)
    · split at member
      · exact List.mem_cons.mp member
      · rcases List.mem_cons.mp member with rfl | later
        · exact .inr List.mem_cons_self
        · exact (ih later).imp_right (List.mem_cons_of_mem _)

theorem mem_values_insert {table : Table α} {key : String} {value held : α}
    (member : held ∈ (table.insert key value).values) : held = value ∨ held ∈ table.values := by
  obtain ⟨entry, among, rfl⟩ := List.mem_map.mp member
  rcases mem_insertEntry among with rfl | old
  · exact .inl rfl
  · exact .inr (List.mem_map_of_mem old)

end Table

namespace Grammar

/-- The grammars that can be looked up, what is injected into each, the one that is
loaded, and all that can be asked for on the way. -/
structure Catalogue where
  grammars : Loaded
  injectors : String → List String
  base : GrammarSource
  askable : List Dependency
  keyed : ∀ scopeName grammar, grammars.get? scopeName = some grammar →
    grammar.scopeName = scopeName
  baseHeld : grammars.get? base.scopeName = some base
  start : .whole base.scopeName ∈ askable
  injected : ∀ scopeName, ∀ injector ∈ injectors scopeName, .whole injector ∈ askable
  named : ∀ scopeName grammar, grammars.get? scopeName = some grammar → ∀ rule ∈ grammar.rules,
    ∀ text dependency, rule.reference = some text →
      (Reference.ofText text).dependency? = some dependency → dependency ∈ askable

namespace Requests

/-- Something has been asked for by itself. -/
def Asked (requests : Requests) : Dependency → Prop
  | .whole scopeName => scopeName ∈ requests.wholes
  | .part scopeName name => (scopeName, name) ∈ requests.parts

/-- Something has been asked for, or the whole grammar that it is in. -/
def Covers (requests : Requests) (dependency : Dependency) : Prop :=
  requests.Asked (.whole dependency.scopeName) ∨ requests.Asked dependency

theorem covers_iff_asked_whole {requests : Requests} {scopeName : String} :
    requests.Covers (.whole scopeName) ↔ requests.Asked (.whole scopeName) := or_self_iff

/-- What has been asked for once stays so. -/
def Grown (before after : Requests) : Prop :=
  ∀ dependency, before.Asked dependency → after.Asked dependency

theorem Covers.grown {before after : Requests} (grown : Grown before after)
    (covers : before.Covers dependency) : after.Covers dependency :=
  covers.imp (grown _) (grown _)

/-- Asking for something leaves it covered. If it was not covered before, it is now
waited for, and nothing else is. -/
theorem ask_cases (requests : Requests) (dependency : Dependency) :
    requests.Covers dependency ∧ requests.ask dependency = requests ∨
    ¬ requests.Asked dependency ∧
      (requests.ask dependency).queue = requests.queue ++ [dependency] ∧
      ∀ other, (requests.ask dependency).Asked other ↔
        requests.Asked other ∨ other = dependency := by
  unfold ask
  split
  next present => exact .inl ⟨.inl (List.contains_iff_mem.mp present), rfl⟩
  next absent =>
    have absent : dependency.scopeName ∉ requests.wholes := fun among =>
      absent (List.contains_iff_mem.mpr among)
    cases dependency with
    | whole scopeName =>
      refine .inr ⟨absent, rfl, fun other => ?_⟩
      cases other <;> simp [Asked, or_comm]
    | part scopeName name =>
      simp only
      split
      next present => exact .inl ⟨.inr (List.contains_iff_mem.mp present), rfl⟩
      next absent =>
        refine .inr ⟨fun among => absent (List.contains_iff_mem.mpr among), rfl, fun other => ?_⟩
        cases other <;> simp [Asked, or_comm]

end Requests

namespace Catalogue

variable (catalogue : Catalogue)

/-- Some of the grammars, each under its scope name, among them the one loaded. -/
structure Part (loaded : Loaded) : Prop where
  within : ∀ scopeName grammar, loaded.get? scopeName = some grammar →
    catalogue.grammars.get? scopeName = some grammar
  keyed : ∀ grammar ∈ loaded.values, loaded.get? grammar.scopeName = some grammar
  base : loaded.get? catalogue.base.scopeName = some catalogue.base

/-- The rules walked over in one round: what each leads to has been walked over as
well, or has been asked for. -/
structure Batch (requests : Requests) (loaded : Loaded) (collector : Collector) : Prop where
  closed : ∀ place scopeName, (place, scopeName) ∈ collector.visited → ∃ context : Context,
    context.base = catalogue.base ∧ loaded.get? scopeName = some context.grammar ∧
      Way context.grammar context.grammar.startPlaces place context.repositories ∧
      collector.Closed context place
  covered : ∀ dependency ∈ collector.needed, requests.Covers dependency

/-- What was asked for has been walked over. -/
def Entered (collector : Collector) (grammar : GrammarSource) : Dependency → Prop
  | .whole _ => collector.TopPassed grammar
  | .part _ name => collector.NamePassed (.top grammar catalogue.base) name

theorem entered_grown {before after : Collector} (grown : before.Grown after)
    {dependency : Dependency} (entered : catalogue.Entered before grammar dependency) :
    catalogue.Entered after grammar dependency := by
  cases dependency with
  | whole => exact fun place member => grown.visited _ (entered place member)
  | part => exact fun place found => grown.visited _ (entered place found)

/-- Something that was asked for has been dealt with. -/
structure Handled (requests : Requests) (loaded : Loaded) (dependency : Dependency) : Prop where
  found : loaded.get? dependency.scopeName = catalogue.grammars.get? dependency.scopeName
  entered : ∀ grammar, loaded.get? dependency.scopeName = some grammar →
    (∃ collector, catalogue.Batch requests loaded collector ∧
      catalogue.Entered collector grammar dependency) ∧
    ∀ injector ∈ catalogue.injectors dependency.scopeName, requests.Asked (.whole injector)

variable {catalogue} {requests later : Requests} {loaded more : Loaded}

/-- Grammars that are loaded stay so. -/
def Kept (loaded more : Loaded) : Prop :=
  ∀ scopeName grammar, loaded.get? scopeName = some grammar → more.get? scopeName = some grammar

theorem Batch.grown (batch : catalogue.Batch requests loaded collector)
    (grown : requests.Grown later) (kept : Kept loaded more) :
    catalogue.Batch later more collector where
  closed place scopeName among := by
    obtain ⟨context, base, held, way, closed⟩ := batch.closed place scopeName among
    exact ⟨context, base, kept _ _ held, way, closed⟩
  covered dependency among := (batch.covered dependency among).grown grown

/-- What has been found is found later, too. -/
theorem Part.found_kept (part : catalogue.Part more) (kept : Kept loaded more)
    (found : loaded.get? scopeName = catalogue.grammars.get? scopeName) :
    more.get? scopeName = catalogue.grammars.get? scopeName := by
  cases held : catalogue.grammars.get? scopeName with
  | some grammar => exact kept _ _ (found.trans held)
  | none =>
    cases under : more.get? scopeName with
    | none => rfl
    | some grammar =>
      have there := part.within _ _ under
      rw [held] at there
      cases there

theorem Handled.grown (handled : catalogue.Handled requests loaded dependency)
    (grown : requests.Grown later) (kept : Kept loaded more) (part : catalogue.Part more) :
    catalogue.Handled later more dependency := by
  have found := part.found_kept kept handled.found
  refine ⟨found, fun grammar held => ?_⟩
  obtain ⟨⟨collector, batch, entered⟩, injected⟩ :=
    handled.entered grammar (handled.found.trans (found.symm.trans held))
  exact ⟨⟨collector, batch.grown grown kept, entered⟩,
    fun injector among => grown _ (injected injector among)⟩

/-- The walk over grammars that are loaded. -/
def setting (part : catalogue.Part loaded) : WalkSetting where
  base := catalogue.base
  loaded := loaded
  Named dependency := dependency ∈ catalogue.askable
  baseLoaded := Table.mem_values part.base
  names grammar member rule among text dependency refers names _ _ :=
    catalogue.named _ grammar (part.within _ _ (part.keyed grammar member)) rule among text dependency
      refers names

/-- Noting injected grammars. -/
theorem passage_injectors (part : catalogue.Part loaded) (injectors : List String)
    (askable : ∀ injector ∈ injectors, .whole injector ∈ catalogue.askable) (collector : Collector) :
    (setting part).Passage collector (injectors.foldl
        (fun (collector : Collector) injector => collector.add (.whole injector)) collector) ∧
      ∀ injector ∈ injectors, .whole injector ∈ (injectors.foldl
        (fun (collector : Collector) injector => collector.add (.whole injector)) collector).needed := by
  induction injectors generalizing collector with
  | nil => exact ⟨.refl _, by simp⟩
  | cons injector injectors ih =>
    obtain ⟨rest, noted⟩ := ih (fun other among => askable other (List.mem_cons_of_mem _ among))
      (collector.add (.whole injector))
    refine ⟨(WalkSetting.passage_add (askable injector List.mem_cons_self)).trans rest, ?_⟩
    intro other among
    rcases List.mem_cons.mp among with rfl | among
    · exact rest.grown.needed _ (collector.grown_add _).2.1
    · exact noted other among

/-- What is asked for is walked over, in the grammar that it is in. -/
theorem passage_walkDependency (part : catalogue.Part loaded) {grammar : GrammarSource}
    (member : grammar ∈ loaded.values) (dependency : Dependency) (collector : Collector) :
    (setting part).Passage collector (walkDependency (walkRules (loaded.ruleCount + 1))
        catalogue.base grammar collector dependency) ∧
      catalogue.Entered (walkDependency (walkRules (loaded.ruleCount + 1)) catalogue.base grammar
        collector dependency) grammar dependency := by
  have walks := (setting part).walks_walkRules (loaded.ruleCount + 1)
  have room : (setting part).unvisited collector < loaded.ruleCount + 1 :=
    Nat.lt_succ_of_le (WalkSetting.unvisited_le_ruleCount collector)
  cases dependency with
  | whole scopeName => exact walks.top member room
  | part scopeName name =>
    exact walks.named (fun _ found =>
      WalkSetting.reaches_start member (WalkSetting.mem_startPlaces_of_lookup found)) room

/-- What a round does about one thing that is asked for. -/
def collectOne (catalogue : Catalogue) (loaded : Loaded) (collector : Collector)
    (dependency : Dependency) : Collector :=
  match loaded.get? dependency.scopeName with
  | none => collector
  | some grammar =>
    (catalogue.injectors dependency.scopeName).foldl
      (fun (collector : Collector) injector => collector.add (.whole injector))
      (walkDependency (walkRules (loaded.ruleCount + 1)) catalogue.base grammar collector dependency)

/-- One request is served: what was asked for is walked over, and its injectors are asked for. -/
theorem passage_collectOne (part : catalogue.Part loaded) (collector : Collector)
    (dependency : Dependency) :
    (setting part).Passage collector (catalogue.collectOne loaded collector dependency) ∧
      ∀ grammar, loaded.get? dependency.scopeName = some grammar →
        catalogue.Entered (catalogue.collectOne loaded collector dependency) grammar dependency ∧
        ∀ injector ∈ catalogue.injectors dependency.scopeName,
          .whole injector ∈ (catalogue.collectOne loaded collector dependency).needed := by
  unfold collectOne
  split
  next absent => exact ⟨.refl _, fun _ held => by rw [absent] at held; cases held⟩
  next grammar held =>
    obtain ⟨walked, entered⟩ :=
      passage_walkDependency part (Table.mem_values held) dependency collector
    obtain ⟨noted, all⟩ := passage_injectors part (catalogue.injectors dependency.scopeName)
      (catalogue.injected dependency.scopeName) (walkDependency (walkRules (loaded.ruleCount + 1))
        catalogue.base grammar collector dependency)
    refine ⟨walked.trans noted, fun other same => ?_⟩
    rw [held] at same
    cases same
    exact ⟨entered_grown catalogue noted.grown entered, all⟩

/-- After a round all that was asked for has been walked over. -/
theorem passage_collect (part : catalogue.Part loaded) (queue : List Dependency)
    (collector : Collector) :
    (setting part).Passage collector (queue.foldl (catalogue.collectOne loaded) collector) ∧
      ∀ dependency ∈ queue, ∀ grammar, loaded.get? dependency.scopeName = some grammar →
        catalogue.Entered (queue.foldl (catalogue.collectOne loaded) collector) grammar dependency ∧
        ∀ injector ∈ catalogue.injectors dependency.scopeName,
          .whole injector ∈ (queue.foldl (catalogue.collectOne loaded) collector).needed := by
  induction queue generalizing collector with
  | nil => exact ⟨.refl _, by simp⟩
  | cons dependency queue ih =>
    obtain ⟨first, here⟩ := passage_collectOne part collector dependency
    obtain ⟨rest, others⟩ := ih (catalogue.collectOne loaded collector dependency)
    refine ⟨first.trans rest, fun other among grammar held => ?_⟩
    rcases List.mem_cons.mp among with rfl | among
    · obtain ⟨entered, injected⟩ := here grammar held
      exact ⟨entered_grown catalogue rest.grown entered,
        fun injector member => rest.grown.needed _ (injected injector member)⟩
    · exact others other among grammar held

/-- A round's walk, once all that it met has been asked for. -/
theorem batch_of_passage (part : catalogue.Part loaded) {collector : Collector}
    (passage : (setting part).Passage {} collector)
    (covered : ∀ dependency ∈ collector.needed, requests.Covers dependency) :
    catalogue.Batch requests loaded collector where
  closed place scopeName among := by
    rcases passage.closed place scopeName among with nothing | ⟨context, reaches, same, closed⟩
    · cases nothing
    · exact ⟨context, reaches.base, same ▸ part.keyed _ reaches.grammar, reaches.way, closed⟩
  covered := covered

section Source

variable {library : Library σ} {source : σ}

variable (catalogue) in
/-- A library in which look-ups change nothing. -/
structure Serves (library : Library σ) (source : σ) : Prop where
  lookup : ∀ scopeName, (library.lookup scopeName).run.run source =
    (.ok (catalogue.grammars.get? scopeName), source)
  injectors : ∀ scopeName, library.injectors scopeName source = catalogue.injectors scopeName

/-- A grammar from the catalogue under its own name leaves the grammars a part of the catalogue. -/
theorem Part.insert (part : catalogue.Part loaded)
    (found : catalogue.grammars.get? scopeName = some grammar)
    (absent : loaded.get? scopeName = none) : catalogue.Part (loaded.insert scopeName grammar) where
  within other held under := by
    rw [Table.get?_insert] at under
    split at under
    next here =>
      cases under
      exact here ▸ found
    next => exact part.within other held under
  keyed held member := by
    rw [Table.get?_insert]
    rcases Table.mem_values_insert member with rfl | old
    · rw [if_pos (catalogue.keyed _ _ found)]
    · have under := part.keyed held old
      have other : held.scopeName ≠ scopeName := fun same => by
        rw [same, absent] at under
        cases under
      rw [if_neg other, under]
  base := by
    have other : catalogue.base.scopeName ≠ scopeName := fun same => by
      have held := part.base
      rw [same, absent] at held
      cases held
    rw [Table.get?_insert, if_neg other, part.base]

theorem kept_insert (absent : loaded.get? scopeName = none) :
    Kept loaded (loaded.insert scopeName grammar) := by
  intro other held under
  have differ : other ≠ scopeName := fun same => by
    rw [same, absent] at under
    cases under
  rw [Table.get?_insert, if_neg differ, under]

/-- After the look-ups of a round, what was asked for is there if it is anywhere. -/
theorem run_lookupAll (serves : catalogue.Serves library source) (queue : List Dependency)
    (part : catalogue.Part loaded) : ∃ more,
      (lookupAll library queue loaded).run.run source = (.ok more, source) ∧
      catalogue.Part more ∧ Kept loaded more ∧
      ∀ dependency ∈ queue,
        more.get? dependency.scopeName = catalogue.grammars.get? dependency.scopeName := by
  induction queue generalizing loaded with
  | nil => exact ⟨loaded, rfl, part, fun _ _ held => held, by simp⟩
  | cons dependency queue ih =>
    -- It is enough to go on from grammars among which what is asked for first is found.
    have step (next : Loaded) (part : catalogue.Part next) (kept : Kept loaded next)
        (found : next.get? dependency.scopeName = catalogue.grammars.get? dependency.scopeName)
        (same : (lookupAll library (dependency :: queue) loaded).run.run source =
          (lookupAll library queue next).run.run source) : ∃ more,
        (lookupAll library (dependency :: queue) loaded).run.run source = (.ok more, source) ∧
        catalogue.Part more ∧ Kept loaded more ∧
        ∀ other ∈ dependency :: queue,
          more.get? other.scopeName = catalogue.grammars.get? other.scopeName := by
      obtain ⟨more, run, whole, after, all⟩ := ih part
      refine ⟨more, same.trans run, whole, fun _ _ held => after _ _ (kept _ _ held), ?_⟩
      intro other among
      rcases List.mem_cons.mp among with rfl | among
      · exact whole.found_kept after found
      · exact all other among
    cases held : loaded.get? dependency.scopeName with
    | some grammar =>
      refine step loaded part (fun _ _ held => held) (held.trans (part.within _ _ held).symm) ?_
      rw [lookupAll, if_pos (by rw [Table.contains, held]; rfl)]
    | none =>
      have absent : ¬ loaded.contains dependency.scopeName = true := by
        rw [Table.contains, held]
        exact Bool.false_ne_true
      cases found : catalogue.grammars.get? dependency.scopeName with
      | some grammar =>
        refine step _ (part.insert found held) (kept_insert held) ?_ ?_
        · rw [Table.get?_insert, if_pos rfl, found]
        · rw [lookupAll, if_neg absent, run_bind, serves.lookup, found]
      | none =>
        refine step loaded part (fun _ _ held => held) (held.trans found.symm) ?_
        rw [lookupAll, if_neg absent, run_bind, serves.lookup, found]

variable (catalogue) in
/-- The requests after some have been dealt with: each was made once, and all can be
made. -/
structure Tracks (processed : List Dependency) (requests : Requests) : Prop where
  asked : ∀ dependency, dependency ∈ processed ++ requests.queue ↔ requests.Asked dependency
  nodup : (processed ++ requests.queue).Nodup
  askable : ∀ dependency ∈ processed ++ requests.queue, dependency ∈ catalogue.askable

/-- Asking for something covers it, and takes back nothing that was asked for. -/
theorem Tracks.ask (tracks : catalogue.Tracks processed requests) {dependency : Dependency}
    (askable : dependency ∈ catalogue.askable) :
    catalogue.Tracks processed (requests.ask dependency) ∧
      requests.Grown (requests.ask dependency) ∧ (requests.ask dependency).Covers dependency := by
  rcases requests.ask_cases dependency with ⟨covers, same⟩ | ⟨absent, queue, asked⟩
  · rw [same]
    exact ⟨tracks, fun _ asked => asked, covers⟩
  · have split : processed ++ (requests.ask dependency).queue =
        processed ++ requests.queue ++ [dependency] := by rw [queue, List.append_assoc]
    refine ⟨⟨fun other => ?_, ?_, fun other among => ?_⟩, fun other held => (asked other).mpr (.inl held),
      .inr ((asked dependency).mpr (.inr rfl))⟩
    · rw [split, List.mem_append, tracks.asked, List.mem_singleton, asked]
    · rw [split, List.nodup_append]
      refine ⟨tracks.nodup, by simp, ?_⟩
      rintro other among _ (_ | ⟨_, ⟨⟩⟩) rfl
      exact absent ((tracks.asked _).mp among)
    · rw [split, List.mem_append] at among
      rcases among with old | new
      · exact tracks.askable other old
      · exact List.mem_singleton.mp new ▸ askable

/-- Asking for all that a round has met. -/
theorem Tracks.askAll (tracks : catalogue.Tracks processed requests) {needed : List Dependency}
    (askable : ∀ dependency ∈ needed, dependency ∈ catalogue.askable) :
    catalogue.Tracks processed (needed.foldl Requests.ask requests) ∧
      requests.Grown (needed.foldl Requests.ask requests) ∧
      ∀ dependency ∈ needed, (needed.foldl Requests.ask requests).Covers dependency := by
  induction needed generalizing requests with
  | nil => exact ⟨tracks, fun _ asked => asked, by simp⟩
  | cons dependency needed ih =>
    obtain ⟨next, first, here⟩ := tracks.ask (askable dependency List.mem_cons_self)
    obtain ⟨last, rest, others⟩ := ih next fun other among =>
      askable other (List.mem_cons_of_mem _ among)
    refine ⟨last, fun _ asked => rest _ (first _ asked), fun other among => ?_⟩
    rcases List.mem_cons.mp among with rfl | among
    · exact here.grown rest
    · exact others other among

/-- No more requests are dealt with than can be made. -/
theorem Tracks.length_le (tracks : catalogue.Tracks processed requests) :
    processed.length ≤ catalogue.askable.length :=
  ((List.nodup_append.mp tracks.nodup).1.subperm fun dependency among =>
    tracks.askable dependency (List.mem_append_left _ among)).length_le

variable (catalogue) in
/-- Between rounds: what has been dealt with, what is asked for, and what is loaded. -/
structure Between (processed : List Dependency) (requests : Requests) (loaded : Loaded) : Prop where
  tracks : catalogue.Tracks processed requests
  part : catalogue.Part loaded
  start : requests.Asked (.whole catalogue.base.scopeName)
  handled : ∀ dependency ∈ processed, catalogue.Handled requests loaded dependency

/-- The requests that a round leaves. -/
def nextRequests (library : Library σ) (source : σ) (catalogue : Catalogue) (requests : Requests)
    (loaded : Loaded) : Requests :=
  (collectNeeded library catalogue.base loaded requests.queue source).foldl Requests.ask
    { requests with queue := [] }

/-- A round deals with all that was asked for. -/
theorem Between.round (serves : catalogue.Serves library source)
    (between : catalogue.Between processed requests loaded) : ∃ more,
      (lookupAll library requests.queue loaded).run.run source = (.ok more, source) ∧
      catalogue.Between (processed ++ requests.queue)
        (nextRequests library source catalogue requests more) more := by
  obtain ⟨more, run, part, kept, found⟩ := run_lookupAll serves requests.queue between.part
  refine ⟨more, run, ?_⟩
  obtain ⟨passage, entered⟩ := passage_collect part requests.queue {}
  have needed : collectNeeded library catalogue.base more requests.queue source =
      (requests.queue.foldl (catalogue.collectOne more) {}).needed.reverse := by
    simp only [collectNeeded, serves.injectors]
    rfl
  have emptied : catalogue.Tracks (processed ++ requests.queue) { requests with queue := [] } := by
    obtain ⟨asked, nodup, askable⟩ := between.tracks
    refine ⟨fun dependency => ?_, by simpa using nodup, by simpa using askable⟩
    rw [List.append_nil, asked]
    cases dependency <;> rfl
  have askable (dependency : Dependency) (among : dependency ∈
      collectNeeded library catalogue.base more requests.queue source) :
      dependency ∈ catalogue.askable := by
    rw [needed] at among
    exact (passage.named dependency (List.mem_reverse.mp among)).resolve_left (by simp)
  obtain ⟨tracks, grown, covered⟩ := emptied.askAll askable
  have met (dependency : Dependency)
      (among : dependency ∈ (requests.queue.foldl (catalogue.collectOne more) {}).needed) :
      (nextRequests library source catalogue requests more).Covers dependency :=
    covered dependency (needed ▸ List.mem_reverse.mpr among)
  refine ⟨tracks, part, grown _ between.start, fun dependency among => ?_⟩
  rcases List.mem_append.mp among with old | new
  · exact (between.handled dependency old).grown grown kept part
  · refine ⟨found dependency new, fun grammar held => ?_⟩
    obtain ⟨walked, injected⟩ := entered dependency new grammar held
    exact ⟨⟨_, batch_of_passage part passage met, walked⟩, fun injector member =>
      Requests.covers_iff_asked_whole.mp (met _ (injected injector member))⟩

variable (catalogue) in
/-- When the rounds are over: all that was asked for has been dealt with. -/
structure Settled (requests : Requests) (loaded : Loaded) : Prop where
  part : catalogue.Part loaded
  start : requests.Asked (.whole catalogue.base.scopeName)
  askable : ∀ dependency, requests.Asked dependency → dependency ∈ catalogue.askable
  handled : ∀ dependency, requests.Asked dependency → catalogue.Handled requests loaded dependency

/-- The rounds come to an end. -/
theorem run_loadRounds (serves : catalogue.Serves library source) (rounds : Nat)
    (between : catalogue.Between processed requests loaded)
    (enough : catalogue.askable.length < processed.length + rounds) : ∃ last final,
      (loadRounds library catalogue.base rounds requests loaded).run.run source =
        (.ok last, source) ∧
      catalogue.Settled final last := by
  induction rounds generalizing processed requests loaded with
  | zero =>
    have bound := between.tracks.length_le
    omega
  | succ rounds ih =>
    rw [loadRounds]
    split
    next idle =>
      refine ⟨loaded, requests, rfl, between.part, between.start, fun dependency asked =>
        between.tracks.askable dependency ((between.tracks.asked dependency).mpr asked),
        fun dependency asked => ?_⟩
      have among := (between.tracks.asked dependency).mpr asked
      rw [List.isEmpty_iff.mp idle, List.append_nil] at among
      exact between.handled dependency among
    next busy =>
      obtain ⟨more, run, next⟩ := between.round serves
      rw [run_bind, run]
      have waiting : 0 < requests.queue.length :=
        List.length_pos_iff.mpr fun empty => busy (List.isEmpty_iff.mpr empty)
      exact ih next (by rw [List.length_append]; omega)

variable (catalogue) in
/-- Before the first round. -/
theorem between_start : catalogue.Between []
    { wholes := [catalogue.base.scopeName], queue := [.whole catalogue.base.scopeName] }
    (Table.empty.insert catalogue.base.scopeName catalogue.base) where
  tracks := {
    asked := fun dependency => by cases dependency <;> simp [Requests.Asked]
    nodup := by simp
    askable := by simpa using catalogue.start }
  part := {
    within := fun scopeName grammar held => by
      rw [Table.get?_insert] at held
      split at held
      next here =>
        cases held
        exact here ▸ catalogue.baseHeld
      next => cases held
    keyed := fun grammar member => by
      rcases Table.mem_values_insert member with rfl | nothing
      · rw [Table.get?_insert, if_pos rfl]
      · cases nothing
    base := by rw [Table.get?_insert, if_pos rfl] }
  start := List.mem_singleton_self _
  handled := by simp

/-- A grammar is loaded with all that it needs, if there are enough rounds. -/
theorem run_loadDependencies (serves : catalogue.Serves library source)
    (enough : catalogue.askable.length < rounds) : ∃ last final,
      (loadDependencies library rounds catalogue.base.scopeName).run.run source =
        (.ok (some last), source) ∧
      catalogue.Settled final last := by
  obtain ⟨last, final, run, settled⟩ :=
    run_loadRounds serves rounds catalogue.between_start (by simpa using enough)
  refine ⟨last, final, ?_, settled⟩
  rw [loadDependencies, run_bind, serves.lookup, catalogue.baseHeld]
  simp only
  rw [run_bind, run]
  rfl

end Source

end Catalogue
end Grammar
end ScopeLexer

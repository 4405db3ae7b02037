import ScopeLexer.Proofs.LibraryAgreement

/-!
What is loaded with a grammar, and at what cost. However grammars name each other and are injected into
each other, the rounds of loading come to an end, and so does each walk over rules, whose depth is never
used up. Nothing is loaded without a reason: a grammar is there because it was asked for, or because a
rule of a grammar that is there names it, or because it is injected into one. And no grammar that there
is is looked up twice. The scope name that a grammar gives itself plays no part in any of this: it need
not be the name under which the grammar is registered.
-/
namespace ScopeLexer.Grammar

/-- A walk over rules that is told what to do with a rule that lies deeper than a bound. -/
def walkRulesThen (beyond : Context → Collector → Place → Collector) : Nat → Walk
  | 0, context, places, collector => places.foldl (beyond context) collector
  | depth + 1, context, places, collector =>
    places.foldl (walkRule (walkRulesThen beyond depth) context) collector

namespace WalkSetting

variable {setting : WalkSetting} {collector : Collector} {depth : Nat} {walk other : Walk}

/-- Two walks do the same while fewer rules are left than there is depth. -/
structure Agrees (setting : WalkSetting) (depth : Nat) (walk other : Walk) : Prop where
  idle : ∀ context collector, other context [] collector = collector
  same : ∀ context places collector, (∀ place ∈ places, setting.Reaches context place) →
    setting.unvisited collector < depth →
    other context places collector = walk context places collector

section

variable (walks : setting.Walks depth walk) (agrees : setting.Agrees depth walk other)
include walks agrees

/-- Two walks that agree on rules agree on whole grammars. -/
theorem Agrees.top {grammar : GrammarSource} (member : grammar ∈ setting.loaded.values)
    (room : setting.unvisited collector < depth) :
    walkTop other setting.base grammar collector = walkTop walk setting.base grammar collector := by
  have tops (place : Place) (among : place ∈ grammar.topPlaces) :
      setting.Reaches (.top grammar setting.base) place :=
    reaches_start member (List.mem_append_left _ among)
  have patterns (place : Place) (among : place ∈ grammar.patterns) :=
    tops place (List.mem_append_left _ among)
  have first := (walks.passes (.top grammar setting.base) _ collector patterns room).1
  rw [walkTop, walkTop, agrees.same _ _ _ patterns room]
  cases injections : grammar.injections with
  | none => rfl
  | some table =>
    refine agrees.same _ _ _ (fun place among => tops place (List.mem_append_right _ ?_))
      (Nat.lt_of_le_of_lt (unvisited_grown first.grown) room)
    rwa [injections]

omit walks in
theorem Agrees.named {context : Context} {name : String}
    (reaches : ∀ place, context.lookup name = some place → setting.Reaches context place)
    (room : setting.unvisited collector < depth) :
    walkNamed other context name collector = walkNamed walk context name collector := by
  rw [walkNamed, walkNamed]
  cases found : context.lookup name with
  | none => rfl
  | some place =>
    refine agrees.same _ _ _ (fun other among => ?_) room
    rw [List.mem_singleton.mp among]
    exact reaches place found

/-- Two walks that agree on rules agree on what a reference leads to. -/
theorem Agrees.reference {context : Context} {place : Place}
    (reaches : setting.Reaches context place) {text : String}
    (refers : (context.grammar.rule place).reference = some text)
    (room : setting.unvisited collector < depth) :
    walkReference other context (context.inside (context.grammar.rule place).repository) collector
        (.ofText text) =
      walkReference walk context (context.inside (context.grammar.rule place).repository) collector
        (.ofText text) := by
  have base := reaches.base
  cases names : Reference.ofText text with
  | base =>
    simp only [walkReference, base]
    exact agrees.top walks setting.baseLoaded room
  | self =>
    simp only [walkReference, base]
    exact agrees.top walks reaches.grammar room
  | inRepository name =>
    exact agrees.named (fun found lookup =>
      ⟨base, reaches.grammar, .named reaches.way refers names lookup⟩) room
  | grammar scopeName =>
    simp only [walkReference, base]
    cases hand : atHand? context scopeName with
    | none => rfl
    | some grammar => exact agrees.top walks (reaches.atHand hand).1 room
  | inGrammar scopeName name =>
    simp only [walkReference, base]
    cases hand : atHand? context scopeName with
    | none => rfl
    | some grammar =>
      exact agrees.named (fun found lookup =>
        reaches_start (reaches.atHand hand).1 (mem_startPlaces_of_lookup lookup)) room

theorem Agrees.tables {context : Context} (tables : List (Option (Table Place)))
    (reaches : ∀ table ∈ tables, ∀ place ∈ (table.map Table.values).getD [],
      setting.Reaches context place)
    (room : setting.unvisited collector < depth) :
    tables.foldl (fun collector table =>
        other context ((table.map Table.values).getD []) collector) collector =
      tables.foldl (fun collector table =>
        walk context ((table.map Table.values).getD []) collector) collector := by
  induction tables generalizing collector with
  | nil => rfl
  | cons table tables ih =>
    have own := reaches table List.mem_cons_self
    have first := (walks.passes context _ collector own room).1
    rw [List.foldl_cons, List.foldl_cons, agrees.same _ _ _ own room]
    exact ih (fun other among => reaches other (List.mem_cons_of_mem _ among))
      (Nat.lt_of_le_of_lt (unvisited_grown first.grown) room)

/-- With room for one rule more, two walks agree on a rule if they agree on all that it leads
to. -/
theorem Agrees.rule {context : Context} {place : Place} (reaches : setting.Reaches context place)
    (room : setting.unvisited collector < depth + 1) :
    walkRule other context collector place = walkRule walk context collector place := by
  cases seen : collector.hasVisited context place with
  | true => rw [walkRule, walkRule, if_pos seen, if_pos seen]
  | false =>
    have unseen : ¬ collector.hasVisited context place = true := by simp [seen]
    by_cases inRange : place < context.grammar.rules.size
    · have less := unvisited_visit reaches.grammar inRange seen
      have room := Nat.lt_of_lt_of_le less (Nat.le_of_lt_succ room)
      have inside (held : Place) (member : held ∈ (context.grammar.rule place).heldPlaces) :
          setting.Reaches (context.inside (context.grammar.rule place).repository) held :=
        ⟨reaches.base, reaches.grammar, .held reaches.way member⟩
      have tried (held : Place) (member : held ∈ (context.grammar.rule place).patterns.getD []) :=
        inside held (List.mem_append_left _ member)
      have captured : ∀ table ∈ (context.grammar.rule place).captureTables,
          ∀ held ∈ (table.map Table.values).getD [],
            setting.Reaches (context.inside (context.grammar.rule place).repository) held :=
        fun table among held member =>
          inside held (List.mem_append_right _ (List.mem_flatMap.mpr ⟨table, among, member⟩))
      have first := (walks.passes _ _ _ tried room).1
      have afterFirst := Nat.lt_of_le_of_lt (unvisited_grown first.grown) room
      have second := (walks.tables _ captured afterFirst).1
      have afterSecond := Nat.lt_of_le_of_lt (unvisited_grown second.grown) afterFirst
      rw [walkRule, walkRule, if_neg unseen, if_neg unseen]
      dsimp only
      have groups := agrees.tables walks _ captured afterFirst
      rw [RuleSource.captureTables] at groups
      rw [agrees.same _ _ _ tried room, groups]
      cases refers : (context.grammar.rule place).reference with
      | none => rfl
      | some text => exact agrees.reference walks reaches refers afterSecond
    · have empty : context.grammar.rule place = {} := by
        rw [GrammarSource.rule, Array.getElem?_eq_none (Nat.le_of_not_lt inRange), Option.getD_none]
      simp [walkRule, unseen, empty, agrees.idle, walks.idle]

end

/-- A walk that has more depth than rules left never comes to where its depth ends. -/
theorem agrees_walkRulesThen (beyond : Context → Collector → Place → Collector) (depth : Nat) :
    setting.Agrees depth (walkRules depth) (walkRulesThen beyond depth) := by
  induction depth with
  | zero => exact ⟨fun _ _ => rfl, fun _ _ _ _ room => nomatch room⟩
  | succ depth ih =>
    refine ⟨fun _ _ => rfl, fun context places collector reaches room => ?_⟩
    rw [walkRulesThen, walkRules]
    induction places generalizing collector with
    | nil => rfl
    | cons place places each =>
      obtain ⟨own, rest⟩ := List.forall_mem_cons.mp reaches
      have first := ((walks_walkRules depth).rule own room).1
      rw [List.foldl_cons, List.foldl_cons, ih.rule (walks_walkRules depth) own room]
      exact each _ rest (Nat.lt_of_le_of_lt (unvisited_grown first.grown) room)

end WalkSetting

section Rounds

variable {σ : Type} (library : Library σ)

/-- What a round does about one thing that is asked for, with a walk over rules. -/
def collectStep (walk : Walk) (base : GrammarSource) (loaded : Loaded) (source : σ)
    (collector : Collector) (dependency : Dependency) : Collector :=
  match loaded.get? dependency.scopeName with
  | none => collector
  | some grammar =>
    (library.injectors dependency.scopeName source).foldl
      (fun (collector : Collector) injector => collector.add (.whole injector))
      (walkDependency walk base grammar collector dependency)

/-- What the grammars asked for need in turn, with a walk over their rules. -/
def collectWith (walk : Walk) (base : GrammarSource) (loaded : Loaded) (queue : List Dependency)
    (source : σ) : List Dependency :=
  (queue.foldl (collectStep library walk base loaded source) {}).needed.reverse

theorem collectNeeded_eq_collectWith (base : GrammarSource) (loaded : Loaded)
    (queue : List Dependency) (source : σ) :
    collectNeeded library base loaded queue source =
      collectWith library (walkRules (loaded.ruleCount + 1)) base loaded queue source := rfl

/-- The rounds of loading, however many there are: what is loaded in the end, or why not, and what
becomes of the source. A walk over rules is over before its depth is used up, so it makes no difference
what would be done then. -/
inductive Rounds (base : GrammarSource) :
    Requests → Loaded → σ → Except Error Loaded × σ → Prop where
  | done (idle : requests.queue = []) : Rounds base requests loaded source (.ok loaded, source)
  | failed (busy : requests.queue ≠ [])
      (looked : (lookupAll library requests.queue loaded).run.run source = (.error reason, after)) :
      Rounds base requests loaded source (.error reason, after)
  | round (busy : requests.queue ≠ [])
      (looked : (lookupAll library requests.queue loaded).run.run source = (.ok more, middle))
      (walked : ∀ beyond, collectWith library (walkRulesThen beyond (more.ruleCount + 1)) base more
        requests.queue middle = needed)
      (rest : Rounds base (needed.foldl Requests.ask { requests with queue := [] }) more middle
        answer) : Rounds base requests loaded source answer

/-- Loading a grammar with all that it needs, however many rounds it takes. -/
inductive Loads (scopeName : String) : σ → Except Error (Option Loaded) × σ → Prop where
  | unknown (looked : (library.lookup scopeName).run.run source = (.ok none, after)) :
      Loads scopeName source (.ok none, after)
  | unreadable (looked : (library.lookup scopeName).run.run source = (.error reason, after)) :
      Loads scopeName source (.error reason, after)
  | found (looked : (library.lookup scopeName).run.run source = (.ok (some grammar), middle))
      (rounds : Rounds library grammar { wholes := [scopeName], queue := [.whole scopeName] }
        (Table.empty.insert scopeName grammar) middle (answer, after)) :
      Loads scopeName source (answer.map some, after)

end Rounds

/-- Grammars by the names under which they are registered, some of which cannot be read, and the names of
what is injected into each. -/
structure Shelf where
  grammars : Table (Except Error GrammarSource)
  injectors : String → List String

namespace Shelf

variable (shelf : Shelf)

/-- The library of a shelf. What a look-up gives depends on nothing but the name; the names that are
looked up are noted, the last one first. -/
def library : Library (List String) where
  lookup scopeName := do
    modify (scopeName :: ·)
    match shelf.grammars.get? scopeName with
    | none => return none
    | some (.ok grammar) => return some grammar
    | some (.error reason) => throw reason
  injectors scopeName _ := shelf.injectors scopeName

theorem run_lookup (scopeName : String) (log : List String) :
    (shelf.library.lookup scopeName).run.run log = (match shelf.grammars.get? scopeName with
      | none => .ok none
      | some (.ok grammar) => .ok (some grammar)
      | some (.error reason) => .error reason, scopeName :: log) := by
  rw [library, run_bind]
  rcases shelf.grammars.get? scopeName with _ | _ | _ <;> rfl

/-- A grammar that is loaded calls for something: one of its rules names it, or it is injected. -/
inductive Calls (loaded : Loaded) (scopeName : String) : Dependency → Prop where
  | named (found : loaded.get? scopeName = some grammar) (member : rule ∈ grammar.rules)
      (refers : rule.reference = some text)
      (names : (Reference.ofText text).dependency? = some dependency) :
      Calls loaded scopeName dependency
  | injected (found : loaded.get? scopeName = some grammar)
      (member : injector ∈ shelf.injectors scopeName) : Calls loaded scopeName (.whole injector)

/-- A name is looked up for a reason: it is the one asked for, or a grammar that is loaded calls for it,
and has been loaded for a reason. -/
inductive Wanted (loaded : Loaded) (start : String) : String → Prop where
  | start : Wanted loaded start start
  | called (outer : Wanted loaded start scopeName)
      (calls : shelf.Calls loaded scopeName dependency) : Wanted loaded start dependency.scopeName

/-- Everything that can be asked for on the way from a name. -/
def askable (start : String) : List Dependency :=
  .whole start :: shelf.grammars.entries.flatMap fun entry =>
    (shelf.injectors entry.1).map .whole ++
      match entry.2 with
      | .ok grammar => grammar.rules.toList.filterMap fun rule =>
          rule.reference.bind fun text => (Reference.ofText text).dependency?
      | .error _ => []

variable {shelf} {loaded more : Loaded} {start scopeName : String} {log : List String}

theorem Calls.kept (calls : shelf.Calls loaded scopeName dependency)
    (kept : Catalogue.Kept loaded more) : shelf.Calls more scopeName dependency := by
  cases calls with
  | named found member refers names => exact .named (kept _ _ found) member refers names
  | injected found member => exact .injected (kept _ _ found) member

theorem Wanted.kept (wanted : shelf.Wanted loaded start scopeName)
    (kept : Catalogue.Kept loaded more) : shelf.Wanted more start scopeName := by
  induction wanted with
  | start => exact .start
  | called _ calls ih => exact .called ih (calls.kept kept)

variable (shelf) in
/-- What has been loaded from a shelf, and what has been looked up for it. -/
structure Holds (start : String) (loaded : Loaded) (log : List String) : Prop where
  within : ∀ name grammar, loaded.get? name = some grammar →
    shelf.grammars.get? name = some (.ok grammar)
  under : ∀ grammar ∈ loaded.values, ∃ name, loaded.get? name = some grammar
  wanted : ∀ name grammar, loaded.get? name = some grammar → shelf.Wanted loaded start name
  noted : ∀ name ∈ log, shelf.grammars.get? name = none ∨ loaded.contains name = true
  once : ∀ name, shelf.grammars.get? name ≠ none → log.count name ≤ 1

variable (shelf) in
/-- Loading has been given up because a grammar cannot be read. -/
structure Fails (reason : Error) (log : List String) : Prop where
  unreadable : ∃ name, shelf.grammars.get? name = some (.error reason)
  once : ∀ name, shelf.grammars.get? name ≠ none → log.count name ≤ 1

/-- What is not loaded has not been looked up, if it is registered. -/
theorem Holds.once_cons (holds : shelf.Holds start loaded log)
    (absent : loaded.get? scopeName = none) :
    ∀ name, shelf.grammars.get? name ≠ none → (scopeName :: log).count name ≤ 1 := by
  intro name registered
  rw [List.count_cons]
  by_cases same : scopeName = name
  · subst same
    have unseen : scopeName ∉ log := fun member => by
      rcases holds.noted scopeName member with unknown | there
      · exact registered unknown
      · rw [Table.contains, absent] at there
        cases there
    have none := List.count_eq_zero_of_not_mem unseen
    rw [if_pos BEq.rfl]
    omega
  · rw [if_neg (by simpa using same)]
    exact holds.once name registered

theorem Holds.pass (holds : shelf.Holds start loaded log) (absent : loaded.get? scopeName = none)
    (unknown : shelf.grammars.get? scopeName = none) :
    shelf.Holds start loaded (scopeName :: log) where
  within := holds.within
  under := holds.under
  wanted := holds.wanted
  noted := List.forall_mem_cons.mpr ⟨.inl unknown, holds.noted⟩
  once := holds.once_cons absent

/-- A wanted grammar that has been found and is put in keeps the library and the log in
agreement. -/
theorem Holds.insert (holds : shelf.Holds start loaded log)
    (absent : loaded.get? scopeName = none)
    (found : shelf.grammars.get? scopeName = some (.ok grammar))
    (wanted : shelf.Wanted loaded start scopeName) :
    shelf.Holds start (loaded.insert scopeName grammar) (scopeName :: log) := by
  have kept : Catalogue.Kept loaded (loaded.insert scopeName grammar) :=
    Catalogue.kept_insert absent
  have here : (loaded.insert scopeName grammar).get? scopeName = some grammar := by
    rw [Table.get?_insert, if_pos rfl]
  refine ⟨fun name other held => ?_, fun other member => ?_, fun name other held => ?_, ?_,
    holds.once_cons absent⟩
  · rw [Table.get?_insert] at held
    split at held
    next same =>
      cases held
      rw [same, found]
    next => exact holds.within name other held
  · rcases Table.mem_values_insert member with rfl | old
    · exact ⟨scopeName, here⟩
    · obtain ⟨name, held⟩ := holds.under other old
      exact ⟨name, kept _ _ held⟩
  · rw [Table.get?_insert] at held
    split at held
    next same => exact same ▸ wanted.kept kept
    next => exact (holds.wanted name other held).kept kept
  · refine List.forall_mem_cons.mpr ⟨.inr (by rw [Table.contains, here]; rfl), fun name member => ?_⟩
    refine (holds.noted name member).imp_right fun there => ?_
    obtain ⟨other, held⟩ := Option.isSome_iff_exists.mp there
    rw [Table.contains, kept _ _ held]
    rfl

/-- The look-ups of a round keep to the shelf, or come upon a grammar that cannot be read. -/
theorem Holds.lookupAll (holds : shelf.Holds start loaded log) (queue : List Dependency)
    (wanted : ∀ dependency ∈ queue, shelf.Wanted loaded start dependency.scopeName) :
    (∃ more after, (lookupAll shelf.library queue loaded).run.run log = (.ok more, after) ∧
      shelf.Holds start more after ∧ Catalogue.Kept loaded more) ∨
    ∃ reason after, (lookupAll shelf.library queue loaded).run.run log = (.error reason, after) ∧
      shelf.Fails reason after := by
  induction queue generalizing loaded log with
  | nil => exact .inl ⟨loaded, log, rfl, holds, fun _ _ held => held⟩
  | cons dependency queue ih =>
    obtain ⟨own, rest⟩ := List.forall_mem_cons.mp wanted
    rw [Grammar.lookupAll]
    cases held : loaded.get? dependency.scopeName with
    | some grammar =>
      rw [if_pos (by rw [Table.contains, held]; rfl)]
      exact ih holds rest
    | none =>
      rw [if_neg (by rw [Table.contains, held]; exact Bool.false_ne_true), run_bind, run_lookup]
      rcases found : shelf.grammars.get? dependency.scopeName with _ | reason | grammar
      · exact ih (holds.pass held found) rest
      · exact .inr ⟨reason, _, rfl, ⟨_, found⟩, holds.once_cons held⟩
      · have kept : Catalogue.Kept loaded (loaded.insert dependency.scopeName grammar) :=
          Catalogue.kept_insert held
        rcases ih (holds.insert held found own) fun other member => (rest other member).kept kept with
          ⟨more, after, run, holds, later⟩ | fails
        · exact .inl ⟨more, after, run, holds, fun _ _ held => later _ _ (kept _ _ held)⟩
        · exact .inr fails

/-- The walk over grammars that have been loaded from a shelf. -/
def Holds.setting (holds : shelf.Holds start loaded log) {base : GrammarSource}
    (member : base ∈ loaded.values) : WalkSetting where
  base := base
  loaded := loaded
  Named dependency := ∃ scopeName, shelf.Calls loaded scopeName dependency
  baseLoaded := member
  names grammar held rule among text dependency refers names _ _ := by
    obtain ⟨scopeName, found⟩ := holds.under grammar held
    exact ⟨scopeName, .named found among refers names⟩

section Collecting

variable {base : GrammarSource} (holds : shelf.Holds start loaded log)
  (member : base ∈ loaded.values)
include holds member

/-- Serving one request leaves closed what it has walked over. -/
theorem passage_collectStep (collector : Collector) (dependency : Dependency) :
    (holds.setting member).Passage collector (collectStep shelf.library
      (walkRules (loaded.ruleCount + 1)) base loaded log collector dependency) := by
  have walks := (holds.setting member).walks_walkRules (loaded.ruleCount + 1)
  have room : (holds.setting member).unvisited collector < loaded.ruleCount + 1 :=
    Nat.lt_succ_of_le (WalkSetting.unvisited_le_ruleCount collector)
  rw [collectStep]
  cases found : loaded.get? dependency.scopeName with
  | none => exact .refl _
  | some grammar =>
    have held : grammar ∈ loaded.values := Table.mem_values found
    have walked : (holds.setting member).Passage collector (walkDependency
        (walkRules (loaded.ruleCount + 1)) base grammar collector dependency) := by
      cases dependency with
      | whole => exact (walks.top held room).1
      | part _ name =>
        exact (walks.named (fun _ lookup => WalkSetting.reaches_start held
          (WalkSetting.mem_startPlaces_of_lookup lookup)) room).1
    refine walked.trans (WalkSetting.passage_foldl _ (fun collector injector among => ?_) _)
    have named : (holds.setting member).Named (.whole injector) :=
      ⟨dependency.scopeName, .injected found among⟩
    exact WalkSetting.passage_add named

/-- What is done where the depth of a walk ends makes no difference to a round. -/
theorem collectStep_eq (beyond : Context → Collector → Place → Collector) (collector : Collector)
    (dependency : Dependency) :
    collectStep shelf.library (walkRulesThen beyond (loaded.ruleCount + 1)) base loaded log collector
        dependency =
      collectStep shelf.library (walkRules (loaded.ruleCount + 1)) base loaded log collector
        dependency := by
  have walks := (holds.setting member).walks_walkRules (loaded.ruleCount + 1)
  have agrees : (holds.setting member).Agrees (loaded.ruleCount + 1) _ _ :=
    WalkSetting.agrees_walkRulesThen beyond _
  have room : (holds.setting member).unvisited collector < loaded.ruleCount + 1 :=
    Nat.lt_succ_of_le (WalkSetting.unvisited_le_ruleCount collector)
  rw [collectStep, collectStep]
  cases found : loaded.get? dependency.scopeName with
  | none => rfl
  | some grammar =>
    have held : grammar ∈ loaded.values := Table.mem_values found
    have same : walkDependency (walkRulesThen beyond (loaded.ruleCount + 1)) base grammar collector
        dependency =
      walkDependency (walkRules (loaded.ruleCount + 1)) base grammar collector dependency := by
      cases dependency with
      | whole => exact agrees.top walks held room
      | part _ name =>
        exact agrees.named (fun _ lookup => WalkSetting.reaches_start held
          (WalkSetting.mem_startPlaces_of_lookup lookup)) room
    simp only [same]

theorem collectWith_eq (beyond : Context → Collector → Place → Collector)
    (queue : List Dependency) :
    collectWith shelf.library (walkRulesThen beyond (loaded.ruleCount + 1)) base loaded queue log =
      collectNeeded shelf.library base loaded queue log := by
  have same : collectStep shelf.library (walkRulesThen beyond (loaded.ruleCount + 1)) base loaded
      log = collectStep shelf.library (walkRules (loaded.ruleCount + 1)) base loaded log := by
    funext collector dependency
    exact collectStep_eq holds member beyond collector dependency
  rw [collectNeeded_eq_collectWith, collectWith, collectWith, same]

/-- All that a round comes upon is called for by a grammar that is loaded. -/
theorem calls_of_collectNeeded {queue : List Dependency}
    (among : dependency ∈ collectNeeded shelf.library base loaded queue log) :
    ∃ scopeName, shelf.Calls loaded scopeName dependency := by
  have passage : (holds.setting member).Passage {} (queue.foldl (collectStep shelf.library
      (walkRules (loaded.ruleCount + 1)) base loaded log) {}) :=
    WalkSetting.passage_foldl queue
      (fun collector dependency _ => passage_collectStep holds member collector dependency) {}
  exact (passage.named dependency (List.mem_reverse.mp among)).resolve_left List.not_mem_nil

end Collecting

theorem Calls.wanted (calls : shelf.Calls loaded scopeName dependency)
    (holds : shelf.Holds start loaded log) :
    shelf.Wanted loaded start dependency.scopeName := by
  have found : ∃ grammar, loaded.get? scopeName = some grammar := by
    cases calls with
    | named found | injected found => exact ⟨_, found⟩
  exact .called (holds.wanted _ _ found.choose_spec) calls

/-- What a loaded grammar calls for is among the finitely many things that can be asked for. -/
theorem Calls.askable (calls : shelf.Calls loaded scopeName dependency)
    (holds : shelf.Holds start loaded log) : dependency ∈ shelf.askable start := by
  refine List.mem_cons_of_mem _ (List.mem_flatMap.mpr ?_)
  have entry {grammar : GrammarSource} (found : loaded.get? scopeName = some grammar) :
      (scopeName, .ok grammar) ∈ shelf.grammars.entries := by
    obtain ⟨before, after, entries, _⟩ := List.lookup_eq_some_iff.mp (holds.within _ _ found)
    rw [entries]
    simp
  cases calls with
  | named found member refers names =>
    refine ⟨_, entry found, List.mem_append_right _ (List.mem_filterMap.mpr
      ⟨_, Array.mem_toList_iff.mpr member, ?_⟩)⟩
    rw [refers, Option.bind_some, names]
  | injected found member =>
    exact ⟨_, entry found, List.mem_append_left _ (List.mem_map_of_mem member)⟩

section Asking

instance (requests : Requests) : (dependency : Dependency) → Decidable (requests.Asked dependency)
  | .whole scopeName => inferInstanceAs (Decidable (scopeName ∈ requests.wholes))
  | .part scopeName name => inferInstanceAs (Decidable ((scopeName, name) ∈ requests.parts))

/-- How much has not been asked for. -/
def unasked (askable : List Dependency) (requests : Requests) : Nat :=
  askable.countP fun dependency => !decide (requests.Asked dependency)

/-- Asking for several things asks for something new, or leaves the requests as they were. -/
theorem unasked_askAll {askable needed : List Dependency}
    (within : ∀ dependency ∈ needed, dependency ∈ askable) (requests : Requests) :
    needed.foldl Requests.ask requests = requests ∨
      unasked askable (needed.foldl Requests.ask requests) < unasked askable requests := by
  induction needed generalizing requests with
  | nil => exact .inl rfl
  | cons dependency needed ih =>
    obtain ⟨own, rest⟩ := List.forall_mem_cons.mp within
    have less : requests.ask dependency = requests ∨
        unasked askable (requests.ask dependency) < unasked askable requests := by
      refine (requests.ask_cases dependency).imp And.right fun ⟨absent, _, asked⟩ => ?_
      refine countP_lt_countP (fun other => ?_) own ?_ ?_
      · simp only [Bool.not_eq_true', decide_eq_false_iff_not, asked]
        exact fun apart held => apart (.inl held)
      · simp [asked]
      · simp [absent]
    rw [List.foldl_cons]
    rcases less with same | less
    · rw [same]
      exact ih rest requests
    · refine .inr ?_
      rcases ih rest (requests.ask dependency) with same | fewer
      · rwa [same]
      · exact Nat.lt_trans fewer less

end Asking

variable (shelf) in
/-- How loading from a shelf can end. -/
def Ends (start : String) : Except Error Loaded → List String → Prop
  | .ok loaded, log => shelf.Holds start loaded log
  | .error reason, log => shelf.Fails reason log

theorem asked_emptied {requests : Requests} {dependency : Dependency} :
    Requests.Asked { requests with queue := [] } dependency ↔ requests.Asked dependency := by
  cases dependency <;> exact Iff.rfl

/-- When nothing is asked for, nothing more is loaded. -/
theorem run_loadRounds_idle (library : Library σ) (base : GrammarSource) {requests : Requests}
    (idle : requests.queue = []) (loaded : Loaded) (source : σ) (rounds : Nat) :
    (loadRounds library base rounds requests loaded).run.run source = (.ok loaded, source) := by
  cases rounds with
  | zero => rfl
  | succ rounds =>
    rw [loadRounds, idle, List.isEmpty_nil, if_pos rfl]
    rfl

theorem unasked_emptied (askable : List Dependency) (requests : Requests) :
    unasked askable { requests with queue := [] } = unasked askable requests :=
  List.countP_congr fun dependency _ => by simp [asked_emptied]

variable (shelf) in
/-- What is asked for after a round. -/
def nextRequests (base : GrammarSource) (loaded : Loaded) (log : List String)
    (requests : Requests) : Requests :=
  (collectNeeded shelf.library base loaded requests.queue log).foldl Requests.ask
    { requests with queue := [] }

/-- After a round all that is asked for is wanted, and there is less left to ask for unless nothing is
asked for. -/
theorem Holds.next {base : GrammarSource} (holds : shelf.Holds start loaded log)
    (member : base ∈ loaded.values) (requests : Requests) :
    (∀ dependency ∈ (shelf.nextRequests base loaded log requests).queue,
      shelf.Wanted loaded start dependency.scopeName) ∧
    ((shelf.nextRequests base loaded log requests).queue = [] ∨
      unasked (shelf.askable start) (shelf.nextRequests base loaded log requests) <
        unasked (shelf.askable start) requests) := by
  have calls {dependency : Dependency} (among : dependency ∈
      collectNeeded shelf.library base loaded requests.queue log) :=
    calls_of_collectNeeded holds member among
  constructor
  · intro dependency among
    rcases Requests.mem_queue_askAll among with nothing | needed
    · cases nothing
    · exact (calls needed).choose_spec.wanted holds
  · have within : ∀ dependency ∈ collectNeeded shelf.library base loaded requests.queue log,
        dependency ∈ shelf.askable start := fun dependency among =>
      (calls among).choose_spec.askable holds
    have fewer := unasked_askAll within { requests with queue := [] }
    rw [unasked_emptied] at fewer
    exact fewer.imp_left fun same => congrArg Requests.queue same

/-- The rounds of loading end, as those that are counted do if enough are allowed. -/
theorem Holds.rounds {base : GrammarSource} (holds : shelf.Holds start loaded log)
    (found : loaded.get? start = some base) {requests : Requests}
    (wanted : ∀ dependency ∈ requests.queue, shelf.Wanted loaded start dependency.scopeName) :
    ∃ answer after, Rounds shelf.library base requests loaded log (answer, after) ∧
      (∀ rounds, unasked (shelf.askable start) requests < rounds →
        (loadRounds shelf.library base rounds requests loaded).run.run log = (answer, after)) ∧
      shelf.Ends start answer after := by
  induction left : unasked (shelf.askable start) requests using Nat.strongRecOn
    generalizing loaded log requests with
  | _ count ih =>
    subst left
    by_cases idle : requests.queue = []
    · exact ⟨.ok loaded, log, .done idle,
        fun rounds _ => run_loadRounds_idle shelf.library base idle loaded log rounds, holds⟩
    · have busy : ¬ requests.queue.isEmpty = true := fun empty => idle (List.isEmpty_iff.mp empty)
      rcases holds.lookupAll requests.queue wanted with
        ⟨more, middle, run, holds, kept⟩ | ⟨reason, after, run, fails⟩
      · have there : more.get? start = some base := kept _ _ found
        have member : base ∈ more.values := Table.mem_values there
        obtain ⟨asks, progress⟩ := holds.next member requests
        have ends : ∃ answer after,
            Rounds shelf.library base (shelf.nextRequests base more middle requests) more middle
              (answer, after) ∧
            (∀ rounds, unasked (shelf.askable start) requests ≤ rounds →
              (loadRounds shelf.library base rounds (shelf.nextRequests base more middle requests)
                more).run.run middle = (answer, after)) ∧
            shelf.Ends start answer after := by
          rcases progress with done | fewer
          · exact ⟨.ok more, middle, .done done,
              fun rounds _ => run_loadRounds_idle shelf.library base done more middle rounds, holds⟩
          · obtain ⟨answer, after, rest, counted, ends⟩ := ih _ fewer holds there asks rfl
            exact ⟨answer, after, rest,
              fun rounds enough => counted rounds (Nat.lt_of_lt_of_le fewer enough), ends⟩
        obtain ⟨answer, after, rest, counted, ends⟩ := ends
        refine ⟨answer, after, .round idle run
          (fun beyond => collectWith_eq holds member beyond requests.queue) rest,
          fun rounds enough => ?_, ends⟩
        obtain ⟨rounds, rfl⟩ := Nat.exists_eq_succ_of_ne_zero (Nat.ne_zero_of_lt enough)
        rw [loadRounds, if_neg busy, run_bind, run]
        exact counted rounds (Nat.le_of_lt_succ enough)
      · refine ⟨.error reason, after, .failed idle run, fun rounds enough => ?_, fails⟩
        obtain ⟨rounds, rfl⟩ := Nat.exists_eq_succ_of_ne_zero (Nat.ne_zero_of_lt enough)
        rw [loadRounds, if_neg busy, run_bind, run]

/-- With one grammar loaded, nothing has been looked up but its name. -/
theorem holds_start (found : shelf.grammars.get? start = some (.ok grammar)) :
    shelf.Holds start (Table.empty.insert start grammar) [start] := by
  have nothing : shelf.Holds start Table.empty [] := by
    refine ⟨fun name grammar held => ?_, fun grammar member => ?_, fun name grammar held => ?_,
      fun name member => ?_, fun name _ => ?_⟩
    · cases held
    · cases member
    · cases held
    · cases member
    · exact Nat.zero_le 1
  exact nothing.insert rfl found .start

end Shelf

/-- Loading a grammar with all that it needs comes to an end, whatever grammars are registered and
however they name each other and are injected into each other, and its answer is that of as many rounds
as can be needed. There is none exactly if the grammar is not registered; else all that is loaded is
registered and wanted, or one of those registered cannot be read. And no registered grammar is looked up
twice. -/
theorem loading_ends (shelf : Shelf) (scopeName : String) : ∃ answer log,
    Loads shelf.library scopeName [] (answer, log) ∧
    (∀ rounds, (shelf.askable scopeName).length < rounds →
      (loadDependencies shelf.library rounds scopeName).run.run [] = (answer, log)) ∧
    (answer = .ok none ↔ shelf.grammars.get? scopeName = none) ∧
    (∀ loaded, answer = .ok (some loaded) → ∀ name grammar, loaded.get? name = some grammar →
      shelf.grammars.get? name = some (.ok grammar) ∧ shelf.Wanted loaded scopeName name) ∧
    (∀ reason, answer = .error reason → ∃ name, shelf.grammars.get? name = some (.error reason)) ∧
    ∀ name, shelf.grammars.get? name ≠ none → log.count name ≤ 1 := by
  have looked := shelf.run_lookup scopeName []
  have single : ∀ name, [scopeName].count name ≤ 1 := fun name =>
    Nat.le_trans List.count_le_length (Nat.le_of_eq rfl)
  rcases found : shelf.grammars.get? scopeName with _ | reason | base
  · rw [found] at looked
    refine ⟨.ok none, [scopeName], .unknown looked, fun rounds _ => ?_, by simp, by simp, by simp,
      fun name _ => single name⟩
    rw [loadDependencies, run_bind, looked]
    rfl
  · rw [found] at looked
    refine ⟨.error reason, [scopeName], .unreadable looked, fun rounds _ => ?_, by simp, by simp, ?_,
      fun name _ => single name⟩
    · rw [loadDependencies, run_bind, looked]
    · rintro _ ⟨⟩
      exact ⟨scopeName, found⟩
  · rw [found] at looked
    have there : (Table.empty.insert scopeName base).get? scopeName = some base := by
      rw [Table.get?_insert, if_pos rfl]
    let requests : Requests := { wholes := [scopeName], queue := [.whole scopeName] }
    have asked : ∀ dependency ∈ requests.queue,
        shelf.Wanted (Table.empty.insert scopeName base) scopeName dependency.scopeName :=
      List.forall_mem_singleton.mpr .start
    obtain ⟨answer, log, rounds, counted, ends⟩ := (Shelf.holds_start found).rounds there asked
    have run (allowed : Nat) (enough : (shelf.askable scopeName).length < allowed) :
        (loadDependencies shelf.library allowed scopeName).run.run [] = (answer.map some, log) := by
      rw [loadDependencies, run_bind, looked]
      dsimp only
      rw [run_bind, counted allowed (Nat.lt_of_le_of_lt List.countP_le_length enough)]
      cases answer <;> rfl
    refine ⟨answer.map some, log, .found looked rounds, run, ?_⟩
    cases answer with
    | error reason =>
      refine ⟨by simp [Except.map], by simp [Except.map], ?_, ends.once⟩
      rintro _ ⟨⟩
      exact ends.unreadable
    | ok last =>
      refine ⟨by simp [Except.map], ?_, by simp [Except.map], ends.once⟩
      rintro _ ⟨⟩ name grammar held
      exact ⟨ends.within name grammar held, ends.wanted name grammar held⟩

end ScopeLexer.Grammar

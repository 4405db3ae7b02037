import ScopeLexer.Proofs.CompilerLockstep

/-! The walk over the rules of grammars. A rule is walked over once, in the context in
which it is come by first; the rules that it holds, and those that it refers to in the
grammars at hand, are walked over as well, and what it refers to in other grammars is
noted. The depth that the walk is given is enough, since every level below the first
belongs to a rule that was not walked over before. So when a walk is over, the rules
that it has walked over are closed: everything that one of them leads to has been
walked over or noted. -/
namespace ScopeLexer

open Grammar

namespace GrammarSource

/-- The rules at the top level of a grammar, and those that it injects. -/
def topPlaces (grammar : GrammarSource) : List Place :=
  grammar.patterns ++ (grammar.injections.map Table.values).getD []

/-- The rules at which a walk can enter a grammar. -/
def startPlaces (grammar : GrammarSource) : List Place :=
  grammar.topPlaces ++ (grammar.repository.map Table.values).getD []

end GrammarSource

namespace Grammar

/-- The rules that stand in a rule: those tried inside it, and those for groups. -/
def RuleSource.heldPlaces (rule : RuleSource) : List Place :=
  rule.patterns.getD [] ++ rule.capturedPlaces

/-- The rule that a name stands for inside some repositories, the innermost first. -/
def placeNamed (repositories : List (Table Place)) (name : String) : Option Place :=
  repositories.findSome? (·.get? name)

/-- The ways to the rules of a grammar from some of them, with the repositories around
a rule on each way. -/
inductive Way (grammar : GrammarSource) (starts : List Place) : Place → List (Table Place) → Prop where
  | start (member : place ∈ starts) : Way grammar starts place grammar.repository.toList
  | held (way : Way grammar starts outer around) (member : place ∈ (grammar.rule outer).heldPlaces) :
    Way grammar starts place ((grammar.rule outer).repository.toList ++ around)
  | named (way : Way grammar starts outer around)
    (refers : (grammar.rule outer).reference = some text)
    (names : Reference.ofText text = .inRepository name)
    (found : placeNamed ((grammar.rule outer).repository.toList ++ around) name = some place) :
    Way grammar starts place ((grammar.rule outer).repository.toList ++ around)
  | own (way : Way grammar starts outer around)
    (refers : (grammar.rule outer).reference = some text)
    (names : Reference.ofText text = .inGrammar grammar.scopeName name)
    (found : grammar.repository.bind (·.get? name) = some place) :
    Way grammar starts place grammar.repository.toList
  | top (way : Way grammar starts outer around)
    (refers : (grammar.rule outer).reference = some text)
    (names : Reference.ofText text = .self ∨ Reference.ofText text = .grammar grammar.scopeName)
    (member : place ∈ grammar.topPlaces) : Way grammar starts place grammar.repository.toList

/-- What names stand for in a rule of a grammar does not depend on the way to it, and
what a rule refers to is looked up around it. -/
structure Unambiguous (grammar : GrammarSource) : Prop where
  names : ∀ place around other, Way grammar grammar.startPlaces place around →
    Way grammar grammar.startPlaces place other → ∀ name,
      placeNamed ((grammar.rule place).repository.toList ++ around) name =
        placeNamed ((grammar.rule place).repository.toList ++ other) name
  references : ∀ place text, (grammar.rule place).reference = some text →
    (grammar.rule place).repository = none

theorem Way.mono {grammar : GrammarSource} {starts more : List Place}
    (subset : ∀ place ∈ starts, place ∈ more) (way : Way grammar starts place around) :
    Way grammar more place around := by
  induction way with
  | start member => exact .start (subset _ member)
  | held _ member ih => exact .held ih member
  | named _ refers names found ih => exact .named ih refers names found
  | own _ refers names found ih => exact .own ih refers names found
  | top _ refers names member ih => exact .top ih refers names member

theorem Way.of_top {grammar : GrammarSource} (way : Way grammar grammar.topPlaces place around) :
    Way grammar grammar.startPlaces place around :=
  way.mono fun _ member => List.mem_append_left _ member

/-- Without repositories inside rules there is nothing to be ambiguous. -/
theorem unambiguous_of_flat {grammar : GrammarSource}
    (flat : ∀ place, (grammar.rule place).repository = none) : Unambiguous grammar where
  names place around other first second name := by
    have only {place : Place} {around : List (Table Place)}
        (way : Way grammar grammar.startPlaces place around) :
        around = grammar.repository.toList := by
      induction way with
      | start | own | top => rfl
      | held _ _ ih | named _ _ _ _ ih => rw [flat, Option.toList_none, List.nil_append, ih]
    rw [only first, only second]
  references place _ _ := flat place

theorem unambiguous_of_rules {grammar : GrammarSource}
    (flat : grammar.rules.all (·.repository.isNone) = true) : Unambiguous grammar := by
  apply unambiguous_of_flat
  intro place
  unfold GrammarSource.rule
  cases held : grammar.rules[place]? with
  | none => rfl
  | some rule =>
    have none := Array.all_eq_true_iff_forall_mem.mp flat rule (Array.mem_of_getElem? held)
    exact Option.isNone_iff_eq_none.mp none

/-- What a reference needs, if it needs anything from a grammar by its name. -/
def Reference.dependency? : Reference → Option Dependency
  | .grammar scopeName => some (.whole scopeName)
  | .inGrammar scopeName name => some (.part scopeName name)
  | .self | .base | .inRepository _ => none

namespace Collector

/-- From one collector to a later one things stay noted. -/
structure Grown (before after : Collector) : Prop where
  needed : ∀ dependency ∈ before.needed, dependency ∈ after.needed
  visited : ∀ key ∈ before.visited, key ∈ after.visited

theorem Grown.refl (collector : Collector) : Grown collector collector :=
  ⟨fun _ among => among, fun _ among => among⟩

theorem Grown.trans {before middle after : Collector} (first : Grown before middle)
    (second : Grown middle after) : Grown before after :=
  ⟨fun _ among => second.needed _ (first.needed _ among),
    fun _ among => second.visited _ (first.visited _ among)⟩

/-- All rules at the top level of a grammar have been walked over. -/
def TopPassed (collector : Collector) (grammar : GrammarSource) : Prop :=
  ∀ place ∈ grammar.topPlaces, (place, grammar.scopeName) ∈ collector.visited

/-- The rule that a name stands for in a context has been walked over. -/
def NamePassed (collector : Collector) (context : Context) (name : String) : Prop :=
  ∀ place, context.lookup name = some place →
    (place, context.grammar.scopeName) ∈ collector.visited

/-- A reference has been followed. `context` is where its rule stands, `inner` is
inside it. -/
def Followed (collector : Collector) (context inner : Context) : Reference → Prop
  | .base => collector.TopPassed context.base
  | .self => collector.TopPassed context.grammar
  | .inRepository name => collector.NamePassed inner name
  | .grammar scopeName =>
    match atHand? context scopeName with
    | some grammar => collector.TopPassed grammar
    | none => .whole scopeName ∈ collector.needed
  | .inGrammar scopeName name =>
    match atHand? context scopeName with
    | some grammar => collector.NamePassed (.top grammar context.base) name
    | none => .part scopeName name ∈ collector.needed

/-- Everything that a rule leads to has been walked over or noted. -/
structure Closed (collector : Collector) (context : Context) (place : Place) : Prop where
  held : ∀ inner ∈ (context.grammar.rule place).heldPlaces,
    (inner, context.grammar.scopeName) ∈ collector.visited
  followed : ∀ text, (context.grammar.rule place).reference = some text →
    collector.Followed context (context.inside (context.grammar.rule place).repository)
      (.ofText text)

variable {before after : Collector}

/-- A reference that has been followed stays followed when more is collected. -/
theorem Followed.grown (grown : Grown before after) {context inner : Context}
    {reference : Reference} (followed : before.Followed context inner reference) :
    after.Followed context inner reference := by
  unfold Followed at followed ⊢
  cases reference with
  | base => exact fun place member => grown.visited _ (followed place member)
  | self => exact fun place member => grown.visited _ (followed place member)
  | inRepository name => exact fun place found => grown.visited _ (followed place found)
  | grammar scopeName =>
    cases hand : atHand? context scopeName with
    | some grammar =>
      simp only [hand] at followed ⊢
      exact fun place member => grown.visited _ (followed place member)
    | none =>
      simp only [hand] at followed ⊢
      exact grown.needed _ followed
  | inGrammar scopeName name =>
    cases hand : atHand? context scopeName with
    | some grammar =>
      simp only [hand] at followed ⊢
      exact fun place found => grown.visited _ (followed place found)
    | none =>
      simp only [hand] at followed ⊢
      exact grown.needed _ followed

theorem Closed.grown (grown : Grown before after) {context : Context} {place : Place}
    (closed : before.Closed context place) : after.Closed context place :=
  ⟨fun inner member => grown.visited _ (closed.held inner member),
    fun text refers => (closed.followed text refers).grown grown⟩

/-- Noting a dependency adds at most that one, and visits nothing. -/
theorem grown_add (collector : Collector) (dependency : Dependency) :
    Grown collector (collector.add dependency) ∧
      dependency ∈ (collector.add dependency).needed ∧
      (collector.add dependency).visited = collector.visited ∧
      ∀ other ∈ (collector.add dependency).needed, other ∈ collector.needed ∨ other = dependency := by
  unfold add
  split
  next present =>
    exact ⟨.refl _, List.contains_iff_mem.mp present, rfl, fun _ among => .inl among⟩
  next =>
    refine ⟨⟨fun _ among => List.mem_cons_of_mem _ among, fun _ among => among⟩,
      List.mem_cons_self, rfl, fun other among => ?_⟩
    rcases List.mem_cons.mp among with same | old
    · exact .inr same
    · exact .inl old

end Collector

/-- What a walk is made over: the grammars loaded, among them the one that the
document is read with, and what their rules name in other grammars. -/
structure WalkSetting where
  base : GrammarSource
  loaded : Loaded
  Named : Dependency → Prop
  baseLoaded : base ∈ loaded.values
  names : ∀ grammar ∈ loaded.values, ∀ rule ∈ grammar.rules, ∀ text dependency,
    rule.reference = some text → (Reference.ofText text).dependency? = some dependency →
    dependency.scopeName ≠ grammar.scopeName → dependency.scopeName ≠ base.scopeName →
    Named dependency

namespace WalkSetting

variable (setting : WalkSetting)

/-- A context in which a walk comes by a rule. -/
structure Reaches (context : Context) (place : Place) : Prop where
  base : context.base = setting.base
  grammar : context.grammar ∈ setting.loaded.values
  way : Way context.grammar context.grammar.startPlaces place context.repositories

/-- What a walk leads from one collector to: the rules walked over in between are
closed. -/
structure Passage (before after : Collector) : Prop where
  grown : before.Grown after
  closed : ∀ place scopeName, (place, scopeName) ∈ after.visited →
    (place, scopeName) ∈ before.visited ∨ ∃ context, setting.Reaches context place ∧
      context.grammar.scopeName = scopeName ∧ after.Closed context place
  named : ∀ dependency ∈ after.needed, dependency ∈ before.needed ∨ setting.Named dependency

variable {setting} {before middle after collector : Collector}

theorem Passage.refl (collector : Collector) : setting.Passage collector collector :=
  ⟨.refl _, fun _ _ among => .inl among, fun _ among => .inl among⟩

/-- A passage after a passage is a passage. -/
theorem Passage.trans (first : setting.Passage before middle)
    (second : setting.Passage middle after) : setting.Passage before after where
  grown := first.grown.trans second.grown
  closed place scopeName among := by
    rcases second.closed place scopeName among with old | new
    · rcases first.closed place scopeName old with older | ⟨context, reaches, same, closed⟩
      · exact .inl older
      · exact .inr ⟨context, reaches, same, closed.grown second.grown⟩
    · exact .inr new
  named dependency among := by
    rcases second.named dependency among with old | new
    · exact first.named dependency old
    · exact .inr new

theorem passage_add {dependency : Dependency} (named : setting.Named dependency) :
    setting.Passage collector (collector.add dependency) := by
  obtain ⟨grown, _, visited, only⟩ := collector.grown_add dependency
  refine ⟨grown, fun place scopeName among => .inl (visited ▸ among), fun other among => ?_⟩
  rcases only other among with old | rfl
  · exact .inl old
  · exact .inr named

/-- Passages, one for each item of a list. -/
theorem passage_foldl {step : Collector → α → Collector} (items : List α)
    (each : ∀ collector, ∀ item ∈ items, setting.Passage collector (step collector item))
    (collector : Collector) : setting.Passage collector (items.foldl step collector) := by
  induction items generalizing collector with
  | nil => exact .refl _
  | cons item items ih =>
    have first := each collector item List.mem_cons_self
    exact first.trans (ih (fun collector other among => each collector other (.tail _ among)) _)

/-- Noting a rule that leads to what has been walked over since. -/
theorem passage_visit {context : Context} {place : Place} (reaches : setting.Reaches context place)
    (rest : setting.Passage (collector.visit context place) after)
    (closed : after.Closed context place) : setting.Passage collector after where
  grown := ⟨rest.grown.needed, fun key among => rest.grown.visited key (List.mem_cons_of_mem _ among)⟩
  closed other scopeName among := by
    rcases rest.closed other scopeName among with noted | new
    · rcases List.mem_cons.mp noted with same | old
      · cases same
        exact .inr ⟨context, reaches, rfl, closed⟩
      · exact .inl old
    · exact .inr new
  named := rest.named

/-- The rules of the grammars loaded, by place and grammar. -/
def places (setting : WalkSetting) : List (Place × String) :=
  setting.loaded.values.flatMap fun grammar =>
    (List.range grammar.rules.size).map fun place => (place, grammar.scopeName)

/-- How many rules have not been walked over. -/
def unvisited (setting : WalkSetting) (collector : Collector) : Nat :=
  setting.places.countP fun key => !collector.visited.contains key

/-- There are no more rules left to visit than rules. -/
theorem unvisited_le_ruleCount (collector : Collector) :
    setting.unvisited collector ≤ setting.loaded.ruleCount := by
  have counted (grammars : List GrammarSource) :
      (grammars.flatMap fun grammar =>
        (List.range grammar.rules.size).map fun place => (place, grammar.scopeName)).length =
        grammars.foldr (fun grammar count => grammar.rules.size + count) 0 := by
    induction grammars with
    | nil => rfl
    | cons grammar grammars ih =>
      rw [List.flatMap_cons, List.length_append, ih]
      simp
  exact Nat.le_trans List.countP_le_length (Nat.le_of_eq (counted setting.loaded.values))

theorem unvisited_grown (grown : before.Grown after) :
    setting.unvisited after ≤ setting.unvisited before := by
  apply List.countP_mono_left
  intro key _ new
  simp only [Bool.not_eq_true', List.contains_eq_mem, decide_eq_false_iff_not] at new ⊢
  exact fun old => new (grown.visited key old)

/-- Walking over a rule leaves fewer. -/
theorem unvisited_visit {context : Context} {place : Place}
    (member : context.grammar ∈ setting.loaded.values)
    (inside : place < context.grammar.rules.size)
    (new : collector.hasVisited context place = false) :
    setting.unvisited (collector.visit context place) < setting.unvisited collector := by
  have among : (place, context.grammar.scopeName) ∈ setting.places :=
    List.mem_flatMap.mpr ⟨context.grammar, member,
      List.mem_map.mpr ⟨place, List.mem_range.mpr inside, rfl⟩⟩
  refine countP_lt_countP (fun key unseen => ?_) among ?_ ?_
  · simp only [Collector.visit, List.contains_cons, Bool.not_or, Bool.and_eq_true] at unseen
    exact unseen.2
  · simp [Collector.visit]
  · have before : collector.visited.contains (place, context.grammar.scopeName) = false := new
    rw [before, Bool.not_false]

/-- A walk that is complete while fewer rules are left than it has depth. -/
structure Walks (setting : WalkSetting) (depth : Nat) (walk : Walk) : Prop where
  idle : ∀ context collector, walk context [] collector = collector
  passes : ∀ context places collector, (∀ place ∈ places, setting.Reaches context place) →
    setting.unvisited collector < depth →
    setting.Passage collector (walk context places collector) ∧
      ∀ place ∈ places,
        (place, context.grammar.scopeName) ∈ (walk context places collector).visited

theorem reaches_start {grammar : GrammarSource} (member : grammar ∈ setting.loaded.values)
    {place : Place} (start : place ∈ grammar.startPlaces) :
    setting.Reaches (.top grammar setting.base) place :=
  ⟨rfl, member, .start start⟩

/-- What is at hand is loaded. -/
theorem Reaches.atHand {context : Context} (reaches : setting.Reaches context place)
    {scopeName : String} {grammar : GrammarSource}
    (hand : atHand? context scopeName = some grammar) :
    grammar ∈ setting.loaded.values ∧ grammar.scopeName = scopeName := by
  unfold atHand? at hand
  split at hand
  next own =>
    cases hand
    exact ⟨reaches.grammar, own.symm⟩
  next =>
    split at hand
    next ofBase =>
      cases hand
      exact ⟨reaches.base ▸ setting.baseLoaded, ofBase.symm⟩
    next => cases hand

/-- What is not at hand is of another grammar. -/
theorem ne_of_atHand {context : Context} {scopeName : String}
    (elsewhere : atHand? context scopeName = none) :
    scopeName ≠ context.grammar.scopeName ∧ scopeName ≠ context.base.scopeName := by
  unfold atHand? at elsewhere
  split at elsewhere
  · cases elsewhere
  next other =>
    split at elsewhere
    · cases elsewhere
    next another => exact ⟨other, another⟩

/-- A name at the top level leads to a rule where walks over the grammar may start. -/
theorem mem_startPlaces_of_lookup {grammar base : GrammarSource} {name : String}
    (found : (Context.top grammar base).lookup name = some place) :
    place ∈ grammar.startPlaces := by
  unfold Context.lookup Context.top at found
  cases repository : grammar.repository with
  | none =>
    rw [repository] at found
    cases found
  | some table =>
    rw [repository] at found
    simp only [Option.toList_some, List.findSome?_cons, List.findSome?_nil] at found
    have held : table.get? name = some place := by
      cases held : table.get? name with
      | none =>
        rw [held] at found
        cases found
      | some other =>
        rw [held] at found
        exact found
    apply List.mem_append_right
    rw [repository]
    exact Table.mem_values held

/-- A rule that refers to something is among those of its grammar. -/
theorem mem_rules_of_reference {grammar : GrammarSource}
    (refers : (grammar.rule place).reference = some text) : grammar.rule place ∈ grammar.rules := by
  unfold GrammarSource.rule at refers ⊢
  cases held : grammar.rules[place]? with
  | none =>
    rw [held] at refers
    cases refers
  | some rule => exact Array.mem_of_getElem? held

section

variable {depth : Nat} {walk : Walk} (walks : setting.Walks depth walk)
include walks

/-- A walk over the top level passes all of it, if walks over rules pass theirs. -/
theorem Walks.top {grammar : GrammarSource} (member : grammar ∈ setting.loaded.values)
    (room : setting.unvisited collector < depth) :
    setting.Passage collector (walkTop walk setting.base grammar collector) ∧
      (walkTop walk setting.base grammar collector).TopPassed grammar := by
  have tops (place : Place) (among : place ∈ grammar.topPlaces) :
      setting.Reaches (.top grammar setting.base) place :=
    reaches_start member (List.mem_append_left _ among)
  obtain ⟨first, passed⟩ := walks.passes (.top grammar setting.base) grammar.patterns collector
    (fun place among => tops place (List.mem_append_left _ among)) room
  unfold walkTop
  cases injections : grammar.injections with
  | none =>
    refine ⟨first, fun place among => ?_⟩
    simp only [GrammarSource.topPlaces, injections, Option.map_none, Option.getD_none,
      List.append_nil] at among
    exact passed place among
  | some table =>
    have injected : grammar.topPlaces = grammar.patterns ++ table.values := by
      simp [GrammarSource.topPlaces, injections]
    obtain ⟨second, also⟩ := walks.passes (.top grammar setting.base) table.values _
      (fun place among => tops place (by rw [injected]; exact List.mem_append_right _ among))
      (Nat.lt_of_le_of_lt (unvisited_grown first.grown) room)
    refine ⟨first.trans second, fun place among => ?_⟩
    rw [injected] at among
    rcases List.mem_append.mp among with pattern | injection
    · exact second.grown.visited _ (passed place pattern)
    · exact also place injection

theorem Walks.named {context : Context} {name : String}
    (reaches : ∀ place, context.lookup name = some place → setting.Reaches context place)
    (room : setting.unvisited collector < depth) :
    setting.Passage collector (walkNamed walk context name collector) ∧
      (walkNamed walk context name collector).NamePassed context name := by
  unfold walkNamed Collector.NamePassed
  cases found : context.lookup name with
  | none => exact ⟨.refl _, by rintro _ ⟨⟩⟩
  | some place =>
    obtain ⟨passage, passed⟩ := walks.passes context [place] collector
      (fun other among => by rw [List.mem_singleton.mp among]; exact reaches place found) room
    refine ⟨passage, ?_⟩
    rintro _ ⟨⟩
    exact passed place (List.mem_singleton_self place)

/-- A reference of a rule that a walk comes by is followed. -/
theorem Walks.reference {context : Context} {place : Place}
    (reaches : setting.Reaches context place) {text : String}
    (refers : (context.grammar.rule place).reference = some text)
    (room : setting.unvisited collector < depth) :
    setting.Passage collector (walkReference walk context
        (context.inside (context.grammar.rule place).repository) collector (.ofText text)) ∧
      (walkReference walk context (context.inside (context.grammar.rule place).repository) collector
        (.ofText text)).Followed context
          (context.inside (context.grammar.rule place).repository) (.ofText text) := by
  have own := mem_rules_of_reference refers
  have base := reaches.base
  cases names : Reference.ofText text with
  | base =>
    simp only [walkReference, Collector.Followed, base]
    exact walks.top setting.baseLoaded room
  | self =>
    simp only [walkReference, Collector.Followed, base]
    exact walks.top reaches.grammar room
  | inRepository name =>
    simp only [walkReference, Collector.Followed]
    exact walks.named (fun found lookup =>
      ⟨base, reaches.grammar, .named reaches.way refers names lookup⟩) room
  | grammar scopeName =>
    simp only [walkReference, Collector.Followed]
    cases hand : atHand? context scopeName with
    | some grammar =>
      simp only [base]
      exact walks.top (reaches.atHand hand).1 room
    | none =>
      obtain ⟨other, another⟩ := ne_of_atHand hand
      have named := setting.names _ reaches.grammar _ own text (.whole scopeName) refers
        (by rw [names]; rfl) other (base ▸ another)
      exact ⟨passage_add named, (collector.grown_add _).2.1⟩
  | inGrammar scopeName name =>
    simp only [walkReference, Collector.Followed]
    cases hand : atHand? context scopeName with
    | some grammar =>
      simp only [base]
      exact walks.named (fun found lookup =>
        reaches_start (reaches.atHand hand).1 (mem_startPlaces_of_lookup lookup)) room
    | none =>
      obtain ⟨other, another⟩ := ne_of_atHand hand
      have named := setting.names _ reaches.grammar _ own text (.part scopeName name) refers
        (by rw [names]; rfl) other (base ▸ another)
      exact ⟨passage_add named, (collector.grown_add _).2.1⟩

/-- The rules of a table for groups are walked over, one table after the other. -/
theorem Walks.tables {context : Context} (tables : List (Option (Table Place)))
    (reaches : ∀ table ∈ tables, ∀ place ∈ (table.map Table.values).getD [],
      setting.Reaches context place)
    (room : setting.unvisited collector < depth) :
    setting.Passage collector (tables.foldl (fun collector table =>
        walk context ((table.map Table.values).getD []) collector) collector) ∧
      ∀ table ∈ tables, ∀ place ∈ (table.map Table.values).getD [],
        (place, context.grammar.scopeName) ∈ (tables.foldl (fun collector table =>
          walk context ((table.map Table.values).getD []) collector) collector).visited := by
  induction tables generalizing collector with
  | nil => exact ⟨.refl _, by simp⟩
  | cons table tables ih =>
    obtain ⟨first, passed⟩ := walks.passes context _ collector (reaches table List.mem_cons_self) room
    obtain ⟨rest, others⟩ := ih (fun other among => reaches other (List.mem_cons_of_mem _ among))
      (Nat.lt_of_le_of_lt (unvisited_grown first.grown) room)
    refine ⟨first.trans rest, fun other among place member => ?_⟩
    rcases List.mem_cons.mp among with rfl | later
    · exact rest.grown.visited _ (passed place member)
    · exact others other later place member

/-- What a rule leads to is walked over, once the rule is noted. -/
theorem Walks.inside {context : Context} {place : Place} (reaches : setting.Reaches context place)
    (room : setting.unvisited collector < depth) {rule : RuleSource}
    (same : context.grammar.rule place = rule) :
    let inner := context.inside rule.repository
    let held := walk inner (rule.patterns.getD []) collector
    let captured := rule.captureTables.foldl (fun collector table =>
      walk inner ((table.map Table.values).getD []) collector) held
    let last := match rule.reference with
      | some text => walkReference walk context inner captured (.ofText text)
      | none => captured
    setting.Passage collector last ∧ last.Closed context place := by
  subst same
  intro inner held captured last
  have inside (other : Place) (member : other ∈ (context.grammar.rule place).heldPlaces) :
      setting.Reaches inner other := ⟨reaches.base, reaches.grammar, .held reaches.way member⟩
  obtain ⟨first, tried⟩ := walks.passes inner _ collector
    (fun other member => inside other (List.mem_append_left _ member)) room
  have room := Nat.lt_of_le_of_lt (unvisited_grown first.grown) room
  obtain ⟨second, groups⟩ := walks.tables (context.grammar.rule place).captureTables
    (fun table among other member =>
      inside other (List.mem_append_right _ (List.mem_flatMap.mpr ⟨table, among, member⟩))) room
  have room := Nat.lt_of_le_of_lt (unvisited_grown second.grown) room
  have ends : setting.Passage captured last ∧
      ∀ text, (context.grammar.rule place).reference = some text →
        last.Followed context inner (.ofText text) := by
    unfold last
    cases refers : (context.grammar.rule place).reference with
    | none => exact ⟨.refl _, by rintro _ ⟨⟩⟩
    | some text =>
      obtain ⟨third, followed⟩ := walks.reference reaches refers room
      exact ⟨third, by rintro _ ⟨⟩; exact followed⟩
  obtain ⟨third, followed⟩ := ends
  refine ⟨first.trans (second.trans third), fun other member => ?_, followed⟩
  rcases List.mem_append.mp member with pattern | group
  · exact third.grown.visited _ (second.grown.visited _ (tried other pattern))
  · obtain ⟨table, among, member⟩ := List.mem_flatMap.mp group
    exact third.grown.visited _ (groups table among other member)

/-- A rule that is not among those of its grammar leads nowhere. -/
theorem Walks.beyond (collector : Collector) {context : Context} {place : Place}
    (beyond : context.grammar.rules.size ≤ place) :
    walkRule walk context collector place =
        (if collector.hasVisited context place then collector else collector.visit context place) ∧
      (collector.visit context place).Closed context place := by
  have empty : context.grammar.rule place = {} := by
    rw [GrammarSource.rule, Array.getElem?_eq_none beyond, Option.getD_none]
  constructor
  · unfold walkRule
    split
    · rfl
    · simp [empty, walks.idle]
  · refine ⟨fun other member => ?_, fun text refers => ?_⟩
    · rw [empty] at member
      cases member
    · rw [empty] at refers
      cases refers

/-- A walk over a rule passes it, if walks with less room pass what the rule leads to. -/
theorem Walks.rule {context : Context} {place : Place} (reaches : setting.Reaches context place)
    (room : setting.unvisited collector < depth + 1) :
    setting.Passage collector (walkRule walk context collector place) ∧
      (place, context.grammar.scopeName) ∈ (walkRule walk context collector place).visited := by
  cases seen : collector.hasVisited context place with
  | true =>
    rw [walkRule, if_pos seen]
    exact ⟨.refl _, List.contains_iff_mem.mp seen⟩
  | false =>
    by_cases inRange : place < context.grammar.rules.size
    · have less := unvisited_visit reaches.grammar inRange seen
      obtain ⟨passage, closed⟩ := walks.inside reaches
        (Nat.lt_of_lt_of_le less (Nat.le_of_lt_succ room)) rfl
      have same : walkRule walk context collector place = _ :=
        if_neg (by rw [seen]; exact Bool.false_ne_true)
      rw [same]
      exact ⟨passage_visit reaches passage closed,
        passage.grown.visited _ List.mem_cons_self⟩
    · obtain ⟨same, closed⟩ := walks.beyond collector (Nat.le_of_not_lt inRange)
      rw [same, seen]
      exact ⟨passage_visit reaches (.refl _) closed, List.mem_cons_self⟩

end

/-- The walk is complete as long as fewer rules are left than it has depth. -/
theorem walks_walkRules (depth : Nat) : setting.Walks depth (walkRules depth) := by
  induction depth with
  | zero => exact ⟨fun _ _ => rfl, fun _ _ _ _ room => nomatch room⟩
  | succ depth ih =>
    refine ⟨fun _ _ => rfl, fun context places collector reaches room => ?_⟩
    rw [walkRules]
    induction places generalizing collector with
    | nil => exact ⟨.refl _, by simp⟩
    | cons place places each =>
      obtain ⟨first, passed⟩ := ih.rule (reaches place List.mem_cons_self) room
      obtain ⟨rest, others⟩ := each _ (fun other among => reaches other (List.mem_cons_of_mem _ among))
        (Nat.lt_of_le_of_lt (unvisited_grown first.grown) room)
      refine ⟨first.trans rest, fun other among => ?_⟩
      rcases List.mem_cons.mp among with rfl | later
      · exact rest.grown.visited _ passed
      · exact others other later

end WalkSetting

end Grammar
end ScopeLexer

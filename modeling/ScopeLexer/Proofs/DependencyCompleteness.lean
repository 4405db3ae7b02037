import ScopeLexer.Proofs.CompilationAgreement
import ScopeLexer.Proofs.DependencyRounds

/-! A grammar compiled with what was loaded for it is what it is compiled to with all
grammars at hand. The walk that loads and the compiler go over the same rules, but in
another order, and each comes to a rule once, in the context that it meets first. They
agree if what the names in a rule stand for does not depend on the way to the rule, and
if a rule that is asked for by its name is met in the walk over the grammar whenever the
grammar is asked for as a whole. -/
namespace ScopeLexer

open Grammar Regex

namespace Grammar

/-- The references that are followed where something is compiled, with the contexts in
which they stand. -/
inductive Follows (context : Context) : Option Place → Context → String → Prop where
  | top (member : number ∈ context.grammar.patterns)
    (refers : (context.grammar.rule number).reference = some text) :
    Follows context none context text
  | tried (member : number ∈ (context.grammar.rule place).triedPlaces)
    (refers : (context.grammar.rule number).reference = some text) :
    Follows context (some place) (context.inside (context.grammar.rule place).repository) text
  | standsFor (refers : (context.grammar.rule place).standsFor = some text) :
    Follows context (some place) (context.inside (context.grammar.rule place).repository) text

/-- The rules that stand where something is compiled. -/
inductive Opens (context : Context) : Option Place → Context → Place → Prop where
  | top (member : number ∈ context.grammar.patterns)
    (plain : (context.grammar.rule number).reference = none) : Opens context none context number
  | tried (member : number ∈ (context.grammar.rule place).triedPlaces)
    (plain : (context.grammar.rule number).reference = none) :
    Opens context (some place) (context.inside (context.grammar.rule place).repository) number
  | captured (member : number ∈ (context.grammar.rule place).capturedPlaces) :
    Opens context (some place) (context.inside (context.grammar.rule place).repository) number

/-- What a compilation of a grammar comes by. -/
inductive Visits (grammars : Loaded) (base : GrammarSource) (injectors : List String) :
    Context → Option Place → Prop where
  | root : Visits grammars base injectors (.top base base) none
  | own (member : entry ∈ (base.injections.map Table.entries).getD []) :
    Visits grammars base injectors (.top base base) (some entry.2)
  | injector (member : name ∈ injectors) (found : grammars.get? name = some injected) :
    Visits grammars base injectors (.top injected base) none
  | opened {inner : Context} (visits : Visits grammars base injectors context place)
    (opens : Opens context place inner number) : Visits grammars base injectors inner (some number)
  | referred {inner : Context} (visits : Visits grammars base injectors context place)
    (follows : Follows context place inner text)
    (found : grammars.target inner (.ofText text) = some (next, target)) :
    Visits grammars base injectors next target

/-- The scope names that a compilation of a grammar looks up: those of the grammars
injected into it, and those that the references it comes by name. -/
inductive Consults (grammars : Loaded) (base : GrammarSource) (injectors : List String) :
    String → Prop where
  | injector (member : name ∈ injectors) : Consults grammars base injectors name
  | reference {inner : Context} (visits : Visits grammars base injectors context place)
    (follows : Follows context place inner text)
    (names : (Reference.ofText text).dependency? = some dependency) :
    Consults grammars base injectors dependency.scopeName

theorem triedPlaces_subset {rule : RuleSource} (member : number ∈ rule.triedPlaces) :
    number ∈ rule.heldPlaces := by
  unfold RuleSource.triedPlaces at member
  split at member
  · cases member
  · exact List.mem_append_left _ member

theorem mem_topPlaces_of_injection {grammar : GrammarSource}
    (member : entry ∈ (grammar.injections.map Table.entries).getD []) :
    entry.2 ∈ grammar.topPlaces := by
  apply List.mem_append_right
  cases injections : grammar.injections with
  | none =>
    rw [injections] at member
    cases member
  | some table =>
    rw [injections] at member
    exact List.mem_map_of_mem member

theorem reference_of_standsFor {rule : RuleSource} (refers : rule.standsFor = some text) :
    rule.reference = some text := by
  unfold RuleSource.standsFor at refers
  split at refers
  · cases refers
  · exact refers

/-- Two tables that have the same under the scope name of a reference have the same for
the reference. -/
theorem target_congr {grammars loaded : Loaded} {reference : Reference}
    (same : ∀ dependency, reference.dependency? = some dependency →
      loaded.get? dependency.scopeName = grammars.get? dependency.scopeName) (context : Context) :
    loaded.target context reference = grammars.target context reference := by
  cases reference with
  | self | base | inRepository => rfl
  | grammar scopeName =>
    have found := same _ rfl
    simp only [Dependency.scopeName] at found
    simp only [Loaded.target, found]
  | inGrammar scopeName name =>
    have found := same _ rfl
    simp only [Dependency.scopeName] at found
    simp only [Loaded.target, found]

theorem lookup_top (grammar base : GrammarSource) (name : String) :
    (Context.top grammar base).lookup name = grammar.repository.bind (·.get? name) := by
  unfold Context.lookup Context.top
  cases grammar.repository with
  | none => rfl
  | some table =>
    simp only [Option.toList_some, List.findSome?_cons, List.findSome?_nil, Option.bind_some]
    cases table.get? name <;> rfl

namespace Catalogue

variable {catalogue : Catalogue} {requests : Requests} {loaded : Loaded} {collector : Collector}
  {inner : Context}

/-- A rule walked over in a round is closed in every context in which it is come by. -/
theorem Batch.closed_of_way (batch : catalogue.Batch requests loaded collector) {context : Context}
    (base : context.base = catalogue.base)
    (held : loaded.get? context.grammar.scopeName = some context.grammar)
    (unambiguous : Unambiguous context.grammar)
    (way : Way context.grammar context.grammar.startPlaces place context.repositories)
    (visited : (place, context.grammar.scopeName) ∈ collector.visited) :
    collector.Closed context place := by
  obtain ⟨other, otherBase, otherHeld, otherWay, inside, followed⟩ :=
    batch.closed place _ visited
  obtain ⟨_, grammar, repositories⟩ := context
  obtain ⟨_, _, otherRepositories⟩ := other
  cases base
  cases otherBase
  cases held.symm.trans otherHeld
  refine ⟨inside, fun text refers => ?_⟩
  have followed := followed text refers
  cases names : Reference.ofText text with
  | self | base | grammar | inGrammar =>
    rw [names] at followed
    exact followed
  | inRepository name =>
    rw [names] at followed
    intro named found
    have same := unambiguous.names place repositories otherRepositories way otherWay name
    exact followed named (same.symm.trans found)

/-- A walk over the top level of a grammar goes over all that the top level leads to. -/
theorem Batch.visited_of_way (batch : catalogue.Batch requests loaded collector)
    {grammar : GrammarSource} (held : loaded.get? grammar.scopeName = some grammar)
    (unambiguous : Unambiguous grammar) (passed : collector.TopPassed grammar)
    (way : Way grammar grammar.topPlaces place around) :
    (place, grammar.scopeName) ∈ collector.visited := by
  have closed {place : Place} {around : List (Table Place)}
      (way : Way grammar grammar.topPlaces place around)
      (visited : (place, grammar.scopeName) ∈ collector.visited) :
      collector.Closed ⟨catalogue.base, grammar, around⟩ place :=
    batch.closed_of_way rfl held unambiguous way.of_top visited
  induction way with
  | start member => exact passed _ member
  | held way member ih => exact (closed way ih).held _ member
  | named way refers names found ih =>
    have followed := (closed way ih).followed _ refers
    rw [names] at followed
    exact followed _ found
  | own way refers names found ih =>
    have followed := (closed way ih).followed _ refers
    rw [names] at followed
    simp only [Collector.Followed, atHand?, if_pos] at followed
    exact followed _ ((lookup_top ..).trans found)
  | top way refers names member ih =>
    have followed := (closed way ih).followed _ refers
    rcases names with names | names
    · rw [names] at followed
      exact followed _ member
    · rw [names] at followed
      simp only [Collector.Followed, atHand?, if_pos] at followed
      exact followed _ member

variable (catalogue) in
/-- The walk and the compiler come to the same. -/
structure Tidy : Prop where
  unambiguous : ∀ scopeName grammar, catalogue.grammars.get? scopeName = some grammar →
    Unambiguous grammar
  /-- A rule asked for by its name is on the way through the grammar if that is asked
  for as a whole. -/
  parts : ∀ scopeName name, .part scopeName name ∈ catalogue.askable →
    .whole scopeName ∈ catalogue.askable →
    ∀ grammar place, catalogue.grammars.get? scopeName = some grammar →
      grammar.repository.bind (·.get? name) = some place →
      ∃ around, Way grammar grammar.topPlaces place around

variable (catalogue requests loaded) in
/-- Something that has been walked over. -/
inductive Covered : Context → Option Place → Prop where
  | top {grammar : GrammarSource} {collector : Collector}
    (held : loaded.get? grammar.scopeName = some grammar)
    (batch : catalogue.Batch requests loaded collector) (passed : collector.TopPassed grammar) :
    Covered (.top grammar catalogue.base) none
  | rule {context : Context} {collector : Collector} (base : context.base = catalogue.base)
    (held : loaded.get? context.grammar.scopeName = some context.grammar)
    (way : Way context.grammar context.grammar.startPlaces place context.repositories)
    (batch : catalogue.Batch requests loaded collector)
    (visited : (place, context.grammar.scopeName) ∈ collector.visited) :
    Covered context (some place)

theorem Covered.held (covered : catalogue.Covered requests loaded context place) :
    loaded.get? context.grammar.scopeName = some context.grammar := by
  cases covered with
  | top held | rule _ held => exact held

variable (settled : catalogue.Settled requests loaded)

section

include settled

/-- What is asked for as a whole is there if it is anywhere, and has been walked over. -/
theorem Settled.whole (asked : requests.Asked (.whole scopeName)) :
    loaded.get? scopeName = catalogue.grammars.get? scopeName ∧
      ∀ grammar, loaded.get? scopeName = some grammar →
        catalogue.Covered requests loaded (.top grammar catalogue.base) none := by
  have handled := settled.handled _ asked
  refine ⟨handled.found, fun grammar held => ?_⟩
  obtain ⟨⟨collector, batch, passed⟩, _⟩ := handled.entered grammar held
  have keyed := catalogue.keyed _ _ (settled.part.within _ _ held)
  exact .top (keyed ▸ held) batch passed

theorem Settled.base : catalogue.Covered requests loaded (.top catalogue.base catalogue.base) none :=
  (settled.whole settled.start).2 _ settled.part.base

/-- A grammar at hand is loaded. -/
theorem Settled.atHand (base : context.base = catalogue.base)
    (held : loaded.get? context.grammar.scopeName = some context.grammar)
    (hand : atHand? context scopeName = some grammar) : loaded.get? scopeName = some grammar := by
  unfold atHand? at hand
  split at hand
  next own =>
    cases hand
    exact own ▸ held
  next =>
    split at hand
    next ofBase =>
      cases hand
      rw [ofBase, base]
      exact settled.part.base
    next => cases hand

/-- A rule at which a grammar is entered, once it has been walked over. -/
theorem Settled.entered (held : loaded.get? scopeName = some grammar)
    (batch : catalogue.Batch requests loaded collector)
    (found : grammar.repository.bind (·.get? name) = some place)
    (visited : (place, grammar.scopeName) ∈ collector.visited) :
    catalogue.Covered requests loaded (.top grammar catalogue.base) (some place) := by
  have keyed := catalogue.keyed _ _ (settled.part.within _ _ held)
  have start : place ∈ grammar.startPlaces :=
    WalkSetting.mem_startPlaces_of_lookup ((lookup_top grammar catalogue.base name).trans found)
  exact .rule rfl (keyed ▸ held) (.start start) batch visited

/-- A grammar that a followed reference names is there if it is anywhere, and has been
walked over. -/
theorem Settled.followed_whole (base : context.base = catalogue.base)
    (held : loaded.get? context.grammar.scopeName = some context.grammar)
    (batch : catalogue.Batch requests loaded collector)
    (followed : collector.Followed context inner (.grammar scopeName)) :
    loaded.get? scopeName = catalogue.grammars.get? scopeName ∧
      ∀ grammar, loaded.get? scopeName = some grammar →
        catalogue.Covered requests loaded (.top grammar catalogue.base) none := by
  unfold Collector.Followed at followed
  cases hand : atHand? context scopeName with
  | some grammar =>
    simp only [hand] at followed
    have under := settled.atHand base held hand
    have registered := settled.part.within _ _ under
    refine ⟨under.trans registered.symm, fun other same => ?_⟩
    cases under.symm.trans same
    exact .top ((catalogue.keyed _ _ registered).symm ▸ under) batch followed
  | none =>
    simp only [hand] at followed
    exact settled.whole (Requests.covers_iff_asked_whole.mp (batch.covered _ followed))

/-- So it is with a rule that is asked for by its name. -/
theorem Settled.part_covered (tidy : catalogue.Tidy)
    (askable : .part scopeName name ∈ catalogue.askable)
    (covers : requests.Covers (.part scopeName name)) :
    loaded.get? scopeName = catalogue.grammars.get? scopeName ∧
      ∀ grammar place, loaded.get? scopeName = some grammar →
        grammar.repository.bind (·.get? name) = some place →
        catalogue.Covered requests loaded (.top grammar catalogue.base) (some place) := by
  rcases covers with whole | asked
  · have handled := settled.handled _ whole
    refine ⟨handled.found, fun grammar place held found => ?_⟩
    obtain ⟨⟨collector, batch, passed⟩, _⟩ := handled.entered grammar held
    have registered := settled.part.within _ _ held
    have keyed := catalogue.keyed _ _ registered
    obtain ⟨around, way⟩ := tidy.parts scopeName name askable (settled.askable _ whole) grammar place
      registered found
    have visited := batch.visited_of_way (keyed ▸ held) (tidy.unambiguous _ _ registered) passed way
    exact settled.entered held batch found visited
  · have handled := settled.handled _ asked
    refine ⟨handled.found, fun grammar place held found => ?_⟩
    obtain ⟨⟨collector, batch, passed⟩, _⟩ := handled.entered grammar held
    exact settled.entered held batch found (passed place ((lookup_top ..).trans found))

end

theorem Covered.of_top (covered : catalogue.Covered requests loaded context none)
    (member : number ∈ context.grammar.topPlaces) :
    catalogue.Covered requests loaded context (some number) := by
  cases covered with
  | top held batch passed =>
    exact .rule rfl held (.start (List.mem_append_left _ member)) batch (passed number member)

section

variable (tidy : catalogue.Tidy)
include settled tidy

theorem Covered.of_held (covered : catalogue.Covered requests loaded context (some place))
    (member : number ∈ (context.grammar.rule place).heldPlaces) :
    catalogue.Covered requests loaded (context.inside (context.grammar.rule place).repository)
      (some number) := by
  cases covered with
  | rule base held way batch visited =>
    have closed := batch.closed_of_way base held
      (tidy.unambiguous _ _ (settled.part.within _ _ held)) way visited
    exact .rule base held (.held way member) batch (closed.held number member)

/-- What stands where something walked over is compiled has been walked over. -/
theorem Covered.opens (covered : catalogue.Covered requests loaded context place)
    (opens : Opens context place inner number) :
    catalogue.Covered requests loaded inner (some number) := by
  cases opens with
  | top member => exact covered.of_top (List.mem_append_left _ member)
  | tried member => exact covered.of_held settled tidy (triedPlaces_subset member)
  | captured member => exact covered.of_held settled tidy (List.mem_append_right _ member)

/-- A reference that is followed where something walked over is compiled stands at a rule
that has been walked over. -/
theorem Covered.follows (covered : catalogue.Covered requests loaded context place)
    (follows : Follows context place inner text) : ∃ number,
      catalogue.Covered requests loaded inner (some number) ∧
      (inner.grammar.rule number).reference = some text := by
  cases follows with
  | top member refers => exact ⟨_, covered.of_top (List.mem_append_left _ member), refers⟩
  | tried member refers =>
    exact ⟨_, covered.of_held settled tidy (triedPlaces_subset member), refers⟩
  | @standsFor place _ refers =>
    have refers := reference_of_standsFor refers
    have registered := settled.part.within _ _ covered.held
    refine ⟨place, ?_, refers⟩
    rw [(tidy.unambiguous _ _ registered).references place text refers]
    exact covered

/-- So it is with a rule of a grammar that a followed reference names. -/
theorem Settled.followed_part (base : context.base = catalogue.base)
    (held : loaded.get? context.grammar.scopeName = some context.grammar)
    (batch : catalogue.Batch requests loaded collector)
    (askable : .part scopeName name ∈ catalogue.askable)
    (followed : collector.Followed context inner (.inGrammar scopeName name)) :
    loaded.get? scopeName = catalogue.grammars.get? scopeName ∧
      ∀ grammar place, loaded.get? scopeName = some grammar →
        grammar.repository.bind (·.get? name) = some place →
        catalogue.Covered requests loaded (.top grammar catalogue.base) (some place) := by
  unfold Collector.Followed at followed
  cases hand : atHand? context scopeName with
  | some grammar =>
    simp only [hand] at followed
    have under := settled.atHand base held hand
    have registered := settled.part.within _ _ under
    refine ⟨under.trans registered.symm, fun other place same found => ?_⟩
    cases under.symm.trans same
    exact settled.entered under batch found (followed place ((lookup_top ..).trans found))
  | none =>
    simp only [hand] at followed
    exact settled.part_covered tidy askable (batch.covered _ followed)

/-- What a rule walked over refers to has been walked over, and is there if it is
anywhere. -/
theorem Covered.refers (covered : catalogue.Covered requests loaded context (some place))
    (refers : (context.grammar.rule place).reference = some text) :
    (∀ dependency, (Reference.ofText text).dependency? = some dependency →
      loaded.get? dependency.scopeName = catalogue.grammars.get? dependency.scopeName) ∧
    ∀ next target, loaded.target context (.ofText text) = some (next, target) →
      catalogue.Covered requests loaded next target := by
  cases covered with
  | rule base held way batch visited =>
    have registered := settled.part.within _ _ held
    have unambiguous := tidy.unambiguous _ _ registered
    have alone := unambiguous.references place text refers
    have followed := (batch.closed_of_way base held unambiguous way visited).followed text refers
    rw [alone] at followed
    cases names : Reference.ofText text with
    | self =>
      rw [names] at followed
      refine ⟨by rintro _ ⟨⟩, ?_⟩
      rintro _ _ ⟨⟩
      rw [base]
      exact .top held batch followed
    | base =>
      refine ⟨by rintro _ ⟨⟩, ?_⟩
      rintro _ _ ⟨⟩
      rw [base]
      exact settled.base
    | inRepository name =>
      rw [names] at followed
      refine ⟨by rintro _ ⟨⟩, fun next target found => ?_⟩
      obtain ⟨named, lookup, same⟩ := Option.map_eq_some_iff.mp found
      cases same
      have onward := Way.named way refers names (by rw [alone]; exact lookup)
      rw [alone] at onward
      exact .rule base held onward batch (followed named lookup)
    | grammar scopeName =>
      rw [names] at followed
      obtain ⟨same, covered⟩ := settled.followed_whole base held batch followed
      refine ⟨by rintro _ ⟨⟩; exact same, fun next target found => ?_⟩
      obtain ⟨grammar, under, node⟩ := Option.map_eq_some_iff.mp found
      cases node
      rw [base]
      exact covered grammar under
    | inGrammar scopeName name =>
      rw [names] at followed
      have askable := catalogue.named _ _ registered _ (WalkSetting.mem_rules_of_reference refers)
        text _ refers (by rw [names]; rfl)
      obtain ⟨same, covered⟩ := settled.followed_part tidy base held batch askable followed
      refine ⟨by rintro _ ⟨⟩; exact same, fun next target found => ?_⟩
      obtain ⟨grammar, under, rest⟩ := Option.bind_eq_some_iff.mp found
      obtain ⟨named, lookup, node⟩ := Option.map_eq_some_iff.mp rest
      cases node
      rw [base]
      exact covered grammar named under lookup

/-- All that a compilation with all grammars at hand comes by has been walked over. -/
theorem Visits.covered
    (visits : Visits catalogue.grammars catalogue.base
      (catalogue.injectors catalogue.base.scopeName) context place) :
    catalogue.Covered requests loaded context place := by
  induction visits with
  | root => exact settled.base
  | own member =>
    exact settled.base.of_top (mem_topPlaces_of_injection member)
  | injector member found =>
    have asked := ((settled.handled _ settled.start).entered _ settled.part.base).2 _ member
    obtain ⟨same, covered⟩ := settled.whole asked
    exact covered _ (same.trans found)
  | opened _ opens ih => exact ih.opens settled tidy opens
  | referred _ follows found ih =>
    obtain ⟨number, covered, refers⟩ := ih.follows settled tidy follows
    obtain ⟨same, reached⟩ := covered.refers settled tidy refers
    exact reached _ _ ((target_congr same _).trans found)

theorem Visits.found
    (visits : Visits catalogue.grammars catalogue.base
      (catalogue.injectors catalogue.base.scopeName) context place)
    (follows : Follows context place inner text)
    (names : (Reference.ofText text).dependency? = some dependency) :
    loaded.get? dependency.scopeName = catalogue.grammars.get? dependency.scopeName := by
  obtain ⟨number, covered, refers⟩ := (covered settled tidy visits).follows settled tidy follows
  exact (covered.refers settled tidy refers).1 dependency names

/-- What is looked up in the compilation is loaded, if it is anywhere. -/
theorem Consults.found
    (consults : Consults catalogue.grammars catalogue.base
      (catalogue.injectors catalogue.base.scopeName) scopeName) :
    loaded.get? scopeName = catalogue.grammars.get? scopeName := by
  cases consults with
  | injector member =>
    have asked := ((settled.handled _ settled.start).entered _ settled.part.base).2 _ member
    exact (settled.handled _ asked).found
  | reference visits follows names => exact Visits.found settled tidy visits follows names

/-- The compilations with what was loaded and with all grammars come by the same. -/
theorem Settled.along : Along catalogue.grammars loaded (Visits catalogue.grammars catalogue.base
    (catalogue.injectors catalogue.base.scopeName)) := by
  have held {context inner : Context} {place : Option Place} {number : Place}
      (visits : Visits catalogue.grammars catalogue.base
        (catalogue.injectors catalogue.base.scopeName) context place)
      (follows : ∀ text, (inner.grammar.rule number).reference = some text →
        Follows context place inner text)
      (opens : (inner.grammar.rule number).reference = none → Opens context place inner number) :
      loaded.held inner number = catalogue.grammars.held inner number ∧
      ∀ next target, catalogue.grammars.held inner number = some (next, target) →
        Visits catalogue.grammars catalogue.base (catalogue.injectors catalogue.base.scopeName)
          next target := by
    unfold Loaded.held
    cases refers : (inner.grammar.rule number).reference with
    | none =>
      refine ⟨rfl, ?_⟩
      rintro _ _ ⟨⟩
      exact .opened visits (opens refers)
    | some text =>
      have follows := follows text refers
      exact ⟨target_congr (fun _ => Visits.found settled tidy visits follows) _,
        fun _ _ => .referred visits follows⟩
  exact {
    memberLeft := fun visits =>
      Table.mem_values (settled.part.within _ _ (Visits.covered settled tidy visits).held)
    memberRight := fun visits => Table.mem_values (Visits.covered settled tidy visits).held
    top := fun visits _ member => held visits (fun _ => .top member) (.top member)
    tried := by
      rintro _ _ visits _ rfl _ member
      exact held visits (fun _ => .tried member) (.tried member)
    captured := by
      rintro _ _ visits _ rfl _ member
      exact .opened visits (.captured member)
    standsFor := by
      rintro _ _ visits _ rfl _ refers
      have follows := Follows.standsFor refers
      exact ⟨target_congr (fun _ => Visits.found settled tidy visits follows) _,
        fun _ _ => .referred visits follows⟩ }

/-- The compilation with what was loaded is the one with all grammars. -/
theorem Settled.compile_eq (engine : Engine) (journal : Journal) :
    compile catalogue.base.scopeName loaded (catalogue.injectors catalogue.base.scopeName) engine
        journal =
      compile catalogue.base.scopeName catalogue.grammars
        (catalogue.injectors catalogue.base.scopeName) engine journal := by
  have roots : ((settled.along tidy).lockstep engine).Roots catalogue.base.scopeName
      (catalogue.injectors catalogue.base.scopeName) catalogue.base catalogue.base := {
    left := catalogue.baseHeld
    right := settled.part.base
    root := ⟨rfl, .root⟩
    injections := rfl
    own := fun _ member => ⟨rfl, .own member⟩
    injected := by
      intro injector member
      have same := Consults.found settled tidy (.injector member)
      change Lockstep.InjectorMatched _ _ _ (catalogue.grammars.get? injector) (loaded.get? injector)
      rw [same]
      cases found : catalogue.grammars.get? injector with
      | none => exact .missing
      | some injected => exact .injected rfl ⟨rfl, .injector member found⟩ }
  exact (Lockstep.compile_agree ((settled.along tidy).plain_lockstep engine) roots journal).1

end

end Catalogue
end Grammar
end ScopeLexer

import ScopeLexer.Proofs.RuleGraph
import ScopeLexer.Proofs.SourceOrder

/-! Where names are looked up. A name inside a rule belongs to the repositories around the
rule as it is written, but the compiler takes those that it has come through: whatever a
rule with a repository leads to sees that repository as well. The two come to the same
where no rule leads out of itself to a use of a name that it declares. Then what the
compiler makes of a rule is what the rule says where it is written, whichever way the
compiler comes to it. -/
namespace ScopeLexer

open Grammar

namespace GrammarSource

/-- The rules around a rule as it is written, the innermost first. A rule stands in the one
that has it in its list, for a group, or in its repository. -/
inductive Enclosed (grammar : GrammarSource) : Place → List Place → Prop where
  | start (member : place ∈ grammar.startPlaces) : Enclosed grammar place []
  | inside (enclosed : Enclosed grammar owner chain)
    (member : place ∈ (grammar.rule owner).namedPlaces) : Enclosed grammar place (owner :: chain)

/-- The rule that the repository of a rule has under a name. -/
def declared (grammar : GrammarSource) (name : String) (owner : Place) : Option Place :=
  (grammar.rule owner).repository.bind (·.get? name)

/-- The rule under a name in the first repository that has the name: those of some rules in
order, and then that of the grammar. -/
def entry (grammar : GrammarSource) (name : String) (owners : List Place) : Option Place :=
  (owners.findSome? (grammar.declared name)).or (grammar.repository.bind (·.get? name))

/-- A rule refers to a name, or one in its list does. -/
def Uses (grammar : GrammarSource) (place : Place) (name : String) : Prop :=
  ∃ text, Reference.ofText text = .inRepository name ∧
    ((grammar.rule place).standsFor = some text ∨
      ∃ inner ∈ (grammar.rule place).triedPlaces, (grammar.rule inner).reference = some text)

/-- The names that a rule and those in its list refer to. -/
def usedNames (grammar : GrammarSource) (place : Place) : List String :=
  let texts := (grammar.rule place).standsFor.toList ++
    (grammar.rule place).triedPlaces.filterMap fun inner => (grammar.rule inner).reference
  texts.filterMap fun text =>
    match Reference.ofText text with
    | .inRepository name => some name
    | .self | .base | .grammar _ | .inGrammar _ _ => none

/-- The names that a rule uses, as a list. -/
theorem uses_iff {grammar : GrammarSource} {place : Place} {name : String} :
    grammar.Uses place name ↔ name ∈ grammar.usedNames place := by
  simp only [Uses, usedNames, List.mem_filterMap, List.mem_append, Option.mem_toList]
  constructor
  · rintro ⟨text, names, among⟩
    exact ⟨text, among, by rw [names]⟩
  · rintro ⟨text, among, names⟩
    split at names
    next same =>
      cases names
      exact ⟨text, same, among⟩
    all_goals cases names

/-- The rules that a rule leads to: those in it, and those that the names in it stand for,
where it is written, and what these lead to. -/
inductive Leads (grammar : GrammarSource) (owner : Place) : Place → Prop where
  | here : Leads grammar owner owner
  | held {inner : Place} (leads : Leads grammar owner place)
    (member : inner ∈ (grammar.rule place).triedPlaces ++ (grammar.rule place).capturedPlaces) :
    Leads grammar owner inner
  | named {name : String} {inner : Place} (leads : Leads grammar owner place)
    (enclosed : grammar.Enclosed place chain) (uses : grammar.Uses place name)
    (found : grammar.entry name (place :: chain) = some inner) : Leads grammar owner inner

/-- Names stay at home: where a rule leads to a use of a name that it declares, the use
stands in the rule. -/
def Contained (grammar : GrammarSource) : Prop :=
  ∀ owner place name chain, grammar.Leads owner place → grammar.Enclosed place chain →
    grammar.Uses place name → (grammar.declared name owner).isSome → owner ∈ place :: chain

variable {grammar : GrammarSource} {chain other owners : List Place} {place owner next : Place}
  {name : String}

section Chains

theorem named_bound (member : place ∈ (grammar.rule owner).namedPlaces) :
    ∃ bound : owner < grammar.rules.size, grammar.rule owner = grammar.rules[owner] := by
  by_cases bound : owner < grammar.rules.size
  · exact ⟨bound, by rw [GrammarSource.rule, Array.getElem?_eq_getElem bound, Option.getD_some]⟩
  · rw [GrammarSource.rule, Array.getElem?_eq_none (Nat.le_of_not_lt bound), Option.getD_none]
      at member
    cases member

/-- A rule is not both at the start of a grammar and in another rule. -/
theorem Orderly.start_apart (orderly : grammar.Orderly) (start : place ∈ grammar.startPlaces)
    (member : place ∈ (grammar.rule owner).namedPlaces) : False := by
  obtain ⟨bound, same⟩ := named_bound member
  refine (List.nodup_append.mp orderly.once).2.2 place start place ?_ rfl
  rw [same] at member
  exact List.mem_flatMap.mpr ⟨_, Array.getElem_mem_toList bound, member⟩

/-- A rule is in one other rule only. -/
theorem Orderly.owner_unique (orderly : grammar.Orderly)
    (first : place ∈ (grammar.rule owner).namedPlaces)
    (second : place ∈ (grammar.rule next).namedPlaces) : owner = next := by
  obtain ⟨bound, same⟩ := named_bound first
  obtain ⟨nextBound, nextSame⟩ := named_bound second
  rw [same] at first
  rw [nextSame] at second
  have apart := (List.pairwise_flatMap.mp (List.nodup_append.mp orderly.once).2.1).2
  rw [List.pairwise_iff_getElem] at apart
  rcases Nat.lt_trichotomy owner next with less | same | less
  · exact absurd rfl (apart owner next bound nextBound less place first place second)
  · exact same
  · exact absurd rfl (apart next owner nextBound bound less place second place first)

/-- In an orderly grammar a rule is enclosed by one chain of rules only. -/
theorem Enclosed.unique (orderly : grammar.Orderly) (first : grammar.Enclosed place chain)
    (second : grammar.Enclosed place other) : chain = other := by
  induction first generalizing other with
  | start start =>
    cases second with
    | start => rfl
    | inside _ member => exact (orderly.start_apart start member).elim
  | inside _ member ih =>
    cases second with
    | start start => exact (orderly.start_apart start member).elim
    | inside enclosed also =>
      obtain rfl := orderly.owner_unique member also
      rw [ih enclosed]

/-- The rules around a rule that stands around another. -/
theorem Enclosed.outer (enclosed : grammar.Enclosed place (chain ++ owner :: other)) :
    grammar.Enclosed owner other := by
  induction chain generalizing place with
  | nil =>
    cases enclosed with
    | inside enclosed => exact enclosed
  | cons first chain ih =>
    cases enclosed with
    | inside enclosed => exact ih enclosed

/-- No rule stands around itself. -/
theorem Enclosed.nodup (orderly : grammar.Orderly) (enclosed : grammar.Enclosed place chain) :
    (place :: chain).Nodup := by
  induction enclosed with
  | start => simp
  | @inside owner chain place enclosed member ih =>
    refine List.nodup_cons.mpr ⟨fun within => ?_, ih⟩
    obtain ⟨before, after, whole⟩ := List.append_of_mem within
    have around := Enclosed.inside enclosed member
    rw [whole] at around
    have same := congrArg List.length (around.unique orderly around.outer)
    simp at same
    omega

end Chains

section Entries

theorem entry_cons (grammar : GrammarSource) (name : String) (owner : Place) (owners : List Place) :
    grammar.entry name (owner :: owners) =
      (grammar.declared name owner).or (grammar.entry name owners) := by
  rw [entry, entry, List.findSome?_cons]
  cases grammar.declared name owner <;> rfl

/-- Rules that do not declare a name have no part in looking it up. -/
theorem entry_append (silent : ∀ owner ∈ owners, grammar.declared name owner = none) :
    grammar.entry name (owners ++ other) = grammar.entry name other := by
  rw [entry, List.findSome?_append, List.findSome?_eq_none_iff.mpr silent, Option.none_or]
  rfl

theorem mem_of_repository {repository : Option (Table Place)}
    (found : repository.bind (·.get? name) = some place) :
    place ∈ (repository.map Table.values).getD [] := by
  obtain ⟨table, rfl, held⟩ := Option.bind_eq_some_iff.mp found
  exact Table.mem_values held

theorem mem_namedPlaces_of_declared (declares : grammar.declared name owner = some place) :
    place ∈ (grammar.rule owner).namedPlaces :=
  List.mem_append_right _ (mem_of_repository declares)

/-- What a name stands for is in the repository of one of the rules, or of the grammar. -/
theorem entry_source (found : grammar.entry name owners = some place) :
    (∃ before owner after, owners = before ++ owner :: after ∧
        grammar.declared name owner = some place) ∨ place ∈ grammar.startPlaces := by
  cases held : owners.findSome? (grammar.declared name) with
  | none =>
    rw [entry, held, Option.none_or] at found
    exact .inr (List.mem_append_right _ (mem_of_repository found))
  | some named =>
    rw [entry, held, Option.some_or, Option.some.injEq] at found
    subst found
    obtain ⟨before, owner, after, whole, declares, _⟩ := List.findSome?_eq_some_iff.mp held
    exact .inl ⟨before, owner, after, whole, declares⟩

end Entries

section Tracing

/-- How a rule is come by. `owners` are the rules that have been gone into on the way, and
`chain` those around the rule. Those around it are among them, all of them lead to it, and
a name that none but those around it declare is looked up alike. -/
structure Traced (grammar : GrammarSource) (owners : List Place) (place : Place)
    (chain : List Place) : Prop where
  enclosed : grammar.Enclosed place chain
  around : chain ⊆ owners
  leads : ∀ owner ∈ owners, grammar.Leads owner place
  names : ∀ name, (∀ owner ∈ owners, (grammar.declared name owner).isSome → owner ∈ chain) →
    grammar.entry name owners = grammar.entry name chain

theorem traced_start (member : place ∈ grammar.startPlaces) : grammar.Traced [] place [] where
  enclosed := .start member
  around := List.Subset.refl _
  leads _ member := nomatch member
  names _ _ := rfl

/-- Going into a rule keeps what names stand for. -/
theorem Traced.names_cons (traced : grammar.Traced owners place chain) (name : String)
    (home : ∀ owner ∈ place :: owners, (grammar.declared name owner).isSome →
      owner ∈ place :: chain) :
    grammar.entry name (place :: owners) = grammar.entry name (place :: chain) := by
  rw [entry_cons, entry_cons]
  cases own : grammar.declared name place with
  | some => rfl
  | none =>
    rw [Option.none_or, Option.none_or]
    apply traced.names name
    intro owner member declares
    rcases List.mem_cons.mp (home owner (List.mem_cons_of_mem place member) declares) with rfl | among
    · rw [own] at declares
      cases declares
    · exact among

theorem Traced.held (traced : grammar.Traced owners place chain)
    (member : next ∈ (grammar.rule place).triedPlaces ++ (grammar.rule place).capturedPlaces) :
    grammar.Traced (place :: owners) next (place :: chain) where
  enclosed := .inside traced.enclosed (by
    rcases List.mem_append.mp member with tried | captured
    · exact List.mem_append_left _ (triedPlaces_subset tried)
    · exact List.mem_append_left _ (List.mem_append_right _ captured))
  around := List.cons_subset_cons place traced.around
  leads owner among := by
    rcases List.mem_cons.mp among with rfl | among
    · exact .held .here member
    · exact .held (traced.leads owner among) member
  names := traced.names_cons

/-- A name that a rule uses stands for the same on the way as around the rule. -/
theorem Traced.resolves (contained : grammar.Contained) (traced : grammar.Traced owners place chain)
    (uses : grammar.Uses place name) :
    grammar.entry name (place :: owners) = grammar.entry name (place :: chain) := by
  refine traced.names_cons name fun owner member declares => ?_
  rcases List.mem_cons.mp member with rfl | member
  · exact List.mem_cons_self
  · exact contained owner place name chain (traced.leads owner member) traced.enclosed uses declares

/-- What a name leads to, used in a rule that is come by, is come by in its turn. -/
theorem Traced.named (orderly : grammar.Orderly) (contained : grammar.Contained)
    (traced : grammar.Traced owners place chain) (uses : grammar.Uses place name)
    (found : grammar.entry name (place :: owners) = some next) :
    ∃ rest, grammar.Traced (place :: owners) next rest := by
  rw [traced.resolves contained uses] at found
  have leads : ∀ owner ∈ place :: owners, grammar.Leads owner next := by
    intro owner among
    rcases List.mem_cons.mp among with rfl | among
    · exact .named .here traced.enclosed uses found
    · exact .named (traced.leads owner among) traced.enclosed uses found
  have around : place :: chain ⊆ place :: owners := List.cons_subset_cons place traced.around
  have nodup := traced.enclosed.nodup orderly
  -- The rules around what is found are the last of those around the name.
  have suffix : ∃ before rest, place :: chain = before ++ rest ∧ grammar.Enclosed next rest := by
    rcases entry_source found with ⟨before, owner, after, whole, declares⟩ | start
    · refine ⟨before, owner :: after, whole, .inside ?_ (mem_namedPlaces_of_declared declares)⟩
      cases before with
      | nil =>
        cases whole
        exact traced.enclosed
      | cons first before =>
        cases whole
        exact traced.enclosed.outer
    · exact ⟨place :: chain, [], (List.append_nil _).symm, .start start⟩
  obtain ⟨before, rest, whole, enclosed⟩ := suffix
  rw [whole] at around nodup
  refine ⟨rest, enclosed, fun owner among => around (List.mem_append_right _ among), leads,
    fun other home => ?_⟩
  have inner : grammar.entry other (place :: owners) = grammar.entry other (place :: chain) := by
    refine traced.names_cons other fun owner among declares => ?_
    rw [whole]
    exact List.mem_append_right _ (home owner among declares)
  rw [inner, whole]
  refine entry_append fun owner among => ?_
  cases declares : grammar.declared other owner with
  | none => rfl
  | some =>
    have outer := home owner (around (List.mem_append_left _ among)) (by rw [declares]; rfl)
    exact absurd rfl ((List.nodup_append.mp nodup).2.2 owner among owner outer)

end Tracing
end GrammarSource

namespace Grammar

variable {base grammar : GrammarSource} {owners chain : List Place} {name : String}

/-- The surroundings inside some rules of a grammar, the innermost first. -/
def Context.within (base grammar : GrammarSource) (owners : List Place) : Context where
  base := base
  grammar := grammar
  repositories := owners.flatMap (fun owner => (grammar.rule owner).repository.toList) ++
    grammar.repository.toList

section Contexts

theorem Context.inside_within (base grammar : GrammarSource) (owners : List Place) (place : Place) :
    (Context.within base grammar owners).inside (grammar.rule place).repository =
      .within base grammar (place :: owners) := by
  simp [Context.within, Context.inside]

/-- A name is looked up in a context among the owners, from the inside out. -/
theorem Context.lookup_within (base grammar : GrammarSource) (owners : List Place) (name : String) :
    (Context.within base grammar owners).lookup name = grammar.entry name owners := by
  rw [Context.lookup, Context.within, GrammarSource.entry, List.findSome?_append]
  congr 1
  · induction owners with
    | nil => rfl
    | cons owner owners ih =>
      rw [List.flatMap_cons, List.findSome?_append, List.findSome?_cons, ih, GrammarSource.declared]
      cases (grammar.rule owner).repository with
      | none => rfl
      | some table => cases held : table.get? name <;> simp [held]
  · cases grammar.repository with
    | none => rfl
    | some table => cases held : table.get? name <;> simp [held]

/-- Something that is compiled where it is written, or where the compiler has come through
rules that lead to it. -/
def Situated (context : Context) : Option Place → Prop
  | none => context = .within context.base context.grammar []
  | some place => ∃ owners chain, context = .within context.base context.grammar owners ∧
      context.grammar.Traced owners place chain

theorem situated_start {place : Place} (member : place ∈ grammar.startPlaces) :
    Situated (.top grammar base) (some place) :=
  ⟨[], [], rfl, GrammarSource.traced_start member⟩

/-- Opening something situated leads to something situated. -/
theorem Opens.situated {context inner : Context} {place : Option Place}
    (opens : Opens context place inner number) (situated : Situated context place) :
    Situated inner (some number) := by
  cases opens with
  | top member =>
    rw [situated]
    exact situated_start (List.mem_append_left _ (List.mem_append_left _ member))
  | tried member =>
    obtain ⟨owners, chain, same, traced⟩ := situated
    refine ⟨_, _, ?_, traced.held (List.mem_append_left _ member)⟩
    rw [same]
    exact Context.inside_within ..
  | captured member =>
    obtain ⟨owners, chain, same, traced⟩ := situated
    refine ⟨_, _, ?_, traced.held (List.mem_append_right _ member)⟩
    rw [same]
    exact Context.inside_within ..

/-- A rule that a name in another rule stands for is come to from there. -/
theorem situated_named {context : Context} {place : Place}
    (orderly : context.grammar.Orderly) (contained : context.grammar.Contained)
    (situated : Situated context (some place)) (uses : context.grammar.Uses place name)
    (found : (context.inside (context.grammar.rule place).repository).lookup name = some number) :
    Situated (context.inside (context.grammar.rule place).repository) (some number) := by
  obtain ⟨owners, chain, same, traced⟩ := situated
  have inside : context.inside (context.grammar.rule place).repository =
      .within context.base context.grammar (place :: owners) := by
    rw [← Context.inside_within, ← same]
  rw [inside, Context.lookup_within] at found
  obtain ⟨rest, traced⟩ := traced.named orderly contained uses found
  exact ⟨_, rest, inside, traced⟩

theorem Follows.situated {context inner : Context} {place : Option Place}
    (orderly : context.grammar.Orderly) (contained : context.grammar.Contained)
    (follows : Follows context place inner text) (situated : Situated context place)
    (names : Reference.ofText text = .inRepository name) (found : inner.lookup name = some number) :
    Situated inner (some number) := by
  cases follows with
  | top =>
    rw [situated] at found ⊢
    exact situated_start (WalkSetting.mem_startPlaces_of_lookup found)
  | tried member refers =>
    exact situated_named orderly contained situated ⟨text, names, .inr ⟨_, member, refers⟩⟩ found
  | standsFor refers =>
    exact situated_named orderly contained situated ⟨text, names, .inl refers⟩ found

end Contexts

namespace Course

variable {course : Course} {context : Context} {place : Option Place}

/-- Every grammar at hand names its rules once, and its names stay at home. -/
structure Tidy (course : Course) : Prop where
  keyed : course.grammars.Keyed
  orderly : ∀ scopeName grammar, course.grammars.get? scopeName = some grammar → grammar.Orderly
  contained : ∀ scopeName grammar, course.grammars.get? scopeName = some grammar → grammar.Contained

/-- Whatever a compilation comes by is where it is written, as far as names go. -/
theorem Visits.situated (tidy : course.Tidy)
    (found : course.grammars.get? scopeName = some course.base)
    (visits : course.Visits context place) : Situated context place := by
  induction visits with
  | root => rfl
  | own member => exact situated_start (List.mem_append_left _ (mem_topPlaces_of_injection member))
  | injector => rfl
  | opened _ opens ih => exact opens.situated ih
  | @referred context place text next target inner visits follows leads ih =>
    have held := (Visits.held tidy.keyed found visits).2
    cases reference : Reference.ofText text with
    | self =>
      rw [reference] at leads
      cases leads
      rfl
    | base =>
      rw [reference] at leads
      cases leads
      rfl
    | inRepository name =>
      rw [reference] at leads
      obtain ⟨number, named, same⟩ := Option.map_eq_some_iff.mp leads
      cases same
      exact follows.situated (tidy.orderly _ _ held) (tidy.contained _ _ held) ih reference named
    | grammar name =>
      rw [reference] at leads
      obtain ⟨grammar, _, same⟩ := Option.map_eq_some_iff.mp leads
      cases same
      rfl
    | inGrammar name entry =>
      rw [reference] at leads
      obtain ⟨grammar, _, leads⟩ := Option.bind_eq_some_iff.mp leads
      obtain ⟨number, named, same⟩ := Option.map_eq_some_iff.mp leads
      cases same
      exact situated_start (List.mem_append_right _ (GrammarSource.mem_of_repository named))

end Course

section Relocating

variable {grammars : Loaded} {state : CompilerState} {context other : Context}

/-- What is compiled, as the compiler knows it. -/
def keyOf (node : Context × Option Place) : Key := ⟨node.2, node.1.grammar.scopeName⟩

/-- Contexts that differ only in names other than those that a rule uses. -/
structure Alike (context other : Context) (place : Place) : Prop where
  base : other.base = context.base
  grammar : other.grammar = context.grammar
  names : ∀ name, context.grammar.Uses place name → other.lookup name = context.lookup name

/-- Alike contexts send a reference to the same rule, whose key is the same. -/
theorem Alike.target (grammars : Loaded) (alike : Alike context other place) (reference : Reference)
    (uses : ∀ name, reference = .inRepository name → context.grammar.Uses place name) :
    (grammars.target other reference).map keyOf = (grammars.target context reference).map keyOf := by
  cases reference with
  | self => simp [Loaded.target, keyOf, Context.top, alike.grammar]
  | base => simp [Loaded.target, keyOf, Context.top, alike.base]
  | inRepository name =>
    rw [Loaded.target, Loaded.target, alike.names name (uses name rfl), Option.map_map, Option.map_map]
    simp [Function.comp_def, keyOf, alike.grammar]
  | grammar scopeName =>
    rw [Loaded.target, Loaded.target, alike.base]
  | inGrammar scopeName name =>
    rw [Loaded.target, Loaded.target, alike.base]

theorem Alike.standsFor (grammars : Loaded) (alike : Alike context other place)
    (refers : (context.grammar.rule place).standsFor = some text) :
    (grammars.target other (.ofText text)).map keyOf =
      (grammars.target context (.ofText text)).map keyOf :=
  alike.target grammars _ fun _ names => ⟨text, names, .inl refers⟩

theorem Alike.held {inner : Place} (grammars : Loaded) (alike : Alike context other place)
    (member : inner ∈ (context.grammar.rule place).triedPlaces) :
    (grammars.held other inner).map keyOf = (grammars.held context inner).map keyOf := by
  rw [Loaded.held, Loaded.held, alike.grammar]
  split
  next text refers =>
    exact alike.target grammars _ fun _ names => ⟨text, names, .inr ⟨inner, member, refers⟩⟩
  next => simp [keyOf, alike.grammar]

/-- A list comes to the same numbers where what is in it leads to the same. -/
theorem Listed.relocate {places : List Place}
    (same : ∀ place ∈ places, (grammars.held other place).map keyOf =
      (grammars.held context place).map keyOf)
    (listed : Listed grammars state context places ids) : Listed grammars state other places ids := by
  have moved {place : Place} {node : Context × Option Place}
      (same : (grammars.held other place).map keyOf = (grammars.held context place).map keyOf)
      (found : grammars.held context place = some node) :
      ∃ next, grammars.held other place = some next ∧ keyOf next = keyOf node := by
    rw [found, Option.map_some] at same
    exact Option.map_eq_some_iff.mp same
  induction listed with
  | nil => exact .nil
  | missing lost _ ih =>
    obtain ⟨here, rest⟩ := List.forall_mem_cons.mp same
    rw [lost, Option.map_none, Option.map_eq_none_iff] at here
    exact .missing here (ih rest)
  | hollow found numbered made hollow _ ih =>
    obtain ⟨here, rest⟩ := List.forall_mem_cons.mp same
    obtain ⟨next, leads, key⟩ := moved here found
    refine .hollow leads ?_ made hollow (ih rest)
    rw [← numbered]
    exact congrArg state.numbers.get? key
  | kept found numbered _ ih =>
    obtain ⟨here, rest⟩ := List.forall_mem_cons.mp same
    obtain ⟨next, leads, key⟩ := moved here found
    refine .kept leads ?_ (ih rest)
    rw [← numbered]
    exact congrArg state.numbers.get? key

/-- A filled table does not depend on the owners of its context. -/
theorem Tabled.relocate (grammar : other.grammar = context.grammar)
    (tabled : Tabled state context captures table) : Tabled state other captures table := by
  obtain ⟨_, _, _⟩ := context
  obtain ⟨_, _, _⟩ := other
  cases grammar
  obtain ⟨slotted⟩ := tabled
  refine .filled (slotted.imp ?_)
  rintro entry slot ⟨same, rule, held, captures⟩
  refine ⟨same, rule, held, ?_⟩
  cases captures with
  | plain without => exact .plain without
  | again within numbered => exact .again within numbered

/-- What a rule comes to depends on the names that it uses. -/
theorem Spelled.relocate {place : Place} {rule : Rule} (alike : Alike context other place)
    (spelled : Spelled grammars state context (context.grammar.rule place) rule) :
    Spelled grammars state other (context.grammar.rule place) rule := by
  have listed {ids : List RuleId} (noMatch : (context.grammar.rule place).matchPattern = none)
      (listed : Listed grammars state context ((context.grammar.rule place).patterns.getD []) ids) :
      Listed grammars state other ((context.grammar.rule place).patterns.getD []) ids := by
    refine listed.relocate fun inner member => alike.held grammars ?_
    simpa [RuleSource.triedPlaces, noMatch] using member
  cases spelled with
  | single isMatch pattern captures =>
    exact .single isMatch pattern (captures.relocate alike.grammar)
  | block noMatch isStart isCondition start startCaptures condition captures inside =>
    exact .block noMatch isStart isCondition start (startCaptures.relocate alike.grammar) condition
      (captures.relocate alike.grammar) (listed noMatch inside)
  | region noMatch isStart noCondition start startCaptures stop captures inside =>
    exact .region noMatch isStart noCondition start (startCaptures.relocate alike.grammar) stop
      (captures.relocate alike.grammar) (listed noMatch inside)
  | renamed refers found numbered =>
    have same := alike.standsFor grammars refers
    rw [found, Option.map_some] at same
    obtain ⟨next, leads, key⟩ := Option.map_eq_some_iff.mp same
    refine .renamed refers leads ?_
    rw [← numbered]
    exact congrArg state.numbers.get? key
  | lost refers missing =>
    have same := alike.standsFor grammars refers
    rw [missing, Option.map_none, Option.map_eq_none_iff] at same
    exact .lost refers same
  | group noMatch noStart noReference inside =>
    exact .group noMatch noStart noReference (listed noMatch inside)

end Relocating

namespace Course

variable {course : Course} {context : Context} {final : CompilerState}

/-- On the way to a rule, the names that it uses stand for what they do around it. -/
theorem alike_within (tidy : course.Tidy)
    (held : course.grammars.get? context.grammar.scopeName = some context.grammar)
    {place : Place} (same : context = .within course.base context.grammar owners)
    (traced : context.grammar.Traced owners place chain) :
    Alike (context.inside (context.grammar.rule place).repository)
      (.within course.base context.grammar (place :: chain)) place where
  base := (congrArg Context.base same).symm
  grammar := rfl
  names name uses := by
    have inside : context.inside (context.grammar.rule place).repository =
        .within course.base context.grammar (place :: owners) := by
      rw [← Context.inside_within, ← same]
    rw [inside, Context.lookup_within, Context.lookup_within]
    exact (traced.resolves (tidy.contained _ _ held) uses).symm

/-- What has been compiled comes to what it says where it is written. -/
theorem Records.lexical {id : RuleId} {place : Place} (tidy : course.Tidy)
    (found : course.grammars.get? scopeName = some course.base)
    (records : course.Records final context (some place) id) :
    ∃ chain, context.grammar.Enclosed place chain ∧ ∃ rule, final.rules[id]? = some rule ∧
      Made course.grammars final (.within course.base context.grammar chain) (some place) rule := by
  obtain ⟨base, held⟩ := records.visits.held tidy.keyed found
  obtain ⟨owners, chain, same, traced⟩ := records.visits.situated tidy found
  obtain ⟨rule, under, made⟩ := records.made
  rw [base] at same
  refine ⟨chain, traced.enclosed, rule, under, ?_⟩
  cases made with
  | written spelled =>
    have moved := Spelled.relocate (alike_within tidy held same traced) spelled
    rw [← Context.inside_within] at moved
    exact .written moved

end Course

end Grammar
end ScopeLexer

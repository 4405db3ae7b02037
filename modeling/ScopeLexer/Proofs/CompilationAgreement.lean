import ScopeLexer.Proofs.RuleLockstep

/-! Compilations that agree. Two compilations of a grammar that look up the same
for all that they come by give the same grammar, with the same notes; and whatever
they give, its rules name rules and patterns that are there. -/
namespace ScopeLexer.Grammar

open Pattern Regex

namespace Lockstep

variable {lockstep : Lockstep} {depth otherDepth : Nat} {origin middle state other : CompilerState}

section Injections

variable (lockstep) in
/-- The rules of injections may be named. -/
def InjectionsValid (state : CompilerState) (injections : List Injection) : Prop :=
  ∀ injection ∈ injections, lockstep.Valid state injection.rule

theorem InjectionsValid.later {injections : List Injection}
    (valid : lockstep.InjectionsValid state injections) (later : Later state middle) :
    lockstep.InjectionsValid middle injections :=
  fun injection among => (valid injection among).later later

theorem pairs_flatten {first second : CompileM (List (List Injection))}
    (head : lockstep.Pairs depth otherDepth origin first second
      (List.map (List.map (Injection.mapId lockstep.rename)))
      (fun state lists => ∀ list ∈ lists, lockstep.InjectionsValid state list)) :
    lockstep.Pairs depth otherDepth origin (do return (← first).flatten)
      (do return (← second).flatten) (List.map (Injection.mapId lockstep.rename))
      lockstep.InjectionsValid := by
  apply pairs_bind head
  intro middle lists _ valid
  refine pairs_pure List.map_flatten.symm fun state later injection among => ?_
  obtain ⟨list, member, among⟩ := List.mem_flatten.mp among
  exact (valid list member).later later injection among

variable (lockstep) in
/-- What a grammar injected into another comes to, on either side. -/
inductive InjectorMatched (base otherBase : GrammarSource) :
    Option GrammarSource → Option GrammarSource → Prop where
  | missing : InjectorMatched base otherBase none none
  | silent {injected other : GrammarSource} (left : injected.injectionSelector = none)
    (right : other.injectionSelector = none) :
    InjectorMatched base otherBase (some injected) (some other)
  | injected {injected other : GrammarSource}
    (same : other.injectionSelector = injected.injectionSelector)
    (node : lockstep.Node (.top injected base) (.top other otherBase) none) :
    InjectorMatched base otherBase (some injected) (some other)

variable {recurse otherRecurse : Recurse}
  (recursive : lockstep.Recursive depth otherDepth recurse otherRecurse)
include recursive

theorem pairs_injectionsOf (selector : String)
    (node : lockstep.Node context otherContext place) :
    lockstep.Pairs depth otherDepth origin
      (do return injectionsOf selector (← recurse context place))
      (do return injectionsOf selector (← otherRecurse otherContext place))
      (List.map (Injection.mapId lockstep.rename)) lockstep.InjectionsValid := by
  apply pairs_bind (recursive _ _ _ _ node)
  intro middle id _ valid
  refine pairs_pure (map_injectionsOf ..).symm fun state later injection among => ?_
  rw [rule_of_mem_injectionsOf among]
  exact valid.later later

/-- Rules that a grammar injects into itself are compiled in step. -/
theorem pairs_inject {grammar other : GrammarSource} {entries : List (String × Place)}
    (nodes : ∀ entry ∈ entries,
      lockstep.Node (.top grammar grammar) (.top other other) (some entry.2)) :
    lockstep.Pairs depth otherDepth origin
      (entries.mapM fun (selector, place) => do
        return injectionsOf selector (← recurse (.top grammar grammar) (some place)))
      (entries.mapM fun (selector, place) => do
        return injectionsOf selector (← otherRecurse (.top other other) (some place)))
      (List.map (List.map (Injection.mapId lockstep.rename)))
      (fun state lists => ∀ list ∈ lists, lockstep.InjectionsValid state list) := by
  apply pairs_mapM _ _ fun _ _ _ valid later => valid.later later
  rintro ⟨selector, place⟩ member
  exact pairs_injectionsOf recursive selector (nodes _ member)

/-- The injections of other grammars are compiled in step, if each injector is in both compilations
or in neither. -/
theorem pairs_compileInjectors {grammar other : GrammarSource} {injectors : List String}
    (found : ∀ injector ∈ injectors, lockstep.InjectorMatched grammar other
      (lockstep.left.get? injector) (lockstep.right.get? injector)) :
    lockstep.Pairs depth otherDepth origin
      (compileInjectors recurse lockstep.left grammar injectors)
      (compileInjectors otherRecurse lockstep.right other injectors)
      (List.map (Injection.mapId lockstep.rename)) lockstep.InjectionsValid := by
  have nothing (origin : CompilerState) : lockstep.Pairs depth otherDepth origin (pure [])
      (pure []) (List.map (Injection.mapId lockstep.rename)) lockstep.InjectionsValid :=
    pairs_pure rfl fun _ _ _ among => nomatch among
  apply pairs_flatten
  apply pairs_mapM _ _ fun _ _ _ valid later => valid.later later
  intro injector member
  have matched := found injector member
  generalize lockstep.left.get? injector = here at matched ⊢
  generalize lockstep.right.get? injector = there at matched ⊢
  cases matched with
  | missing => exact pairs_bind (pairs_warn _) fun middle _ _ _ => nothing middle
  | silent left right =>
    simp only [left, right]
    exact nothing origin
  | injected same node =>
    simp only [same]
    split
    · exact nothing origin
    · exact pairs_injectionsOf recursive _ node

end Injections

section Whole

variable {scopeName : String} {injectors : List String} {grammar otherGrammar : GrammarSource}

variable (lockstep) in
/-- Where two compilations of a grammar start, in step. -/
structure Roots (scopeName : String) (injectors : List String)
    (grammar otherGrammar : GrammarSource) : Prop where
  left : lockstep.left.get? scopeName = some grammar
  right : lockstep.right.get? scopeName = some otherGrammar
  root : lockstep.Node (.top grammar grammar) (.top otherGrammar otherGrammar) none
  injections : otherGrammar.injections = grammar.injections
  own : ∀ entry ∈ (grammar.injections.map Table.entries).getD [],
    lockstep.Node (.top grammar grammar) (.top otherGrammar otherGrammar) (some entry.2)
  injected : ∀ injector ∈ injectors, lockstep.InjectorMatched grammar otherGrammar
    (lockstep.left.get? injector) (lockstep.right.get? injector)

variable (lockstep) in
/-- The root and the injections may be named. -/
def ResultValid (state : CompilerState) (result : RuleId × List Injection) : Prop :=
  lockstep.Valid state result.1 ∧ ∀ injection ∈ result.2, lockstep.Valid state injection.rule

/-- Whole compilations go in step once their top levels do. -/
theorem pairs_compileAll (roots : lockstep.Roots scopeName injectors grammar otherGrammar) :
    lockstep.Pairs (depthFor lockstep.left) (depthFor lockstep.right) origin
      (compileAll scopeName lockstep.left injectors lockstep.engine)
      (compileAll scopeName lockstep.right injectors lockstep.engine)
      (Prod.map lockstep.rename (List.map (Injection.mapId lockstep.rename)))
      lockstep.ResultValid := by
  have recursive := lockstep.pairs_compileAt (depthFor lockstep.left) (depthFor lockstep.right)
  unfold compileAll
  rw [roots.left, roots.right]
  apply pairs_bind (recursive _ _ _ _ roots.root)
  intro rooted root _ rootValid
  unfold compileOwnInjections
  rw [roots.injections]
  apply pairs_bind (pairs_flatten (pairs_inject recursive roots.own))
  intro injected own fromRooted ownValid
  apply pairs_bind (pairs_compileInjectors recursive roots.injected)
  intro last others fromInjected othersValid
  refine pairs_pure ?_ fun state after => ⟨?_, fun injection among => ?_⟩
  · simp only [Prod.map_apply, map_sortInjections, List.map_append]
  · exact rootValid.later (fromRooted.trans (fromInjected.trans after))
  · rcases List.mem_append.mp (List.mem_mergeSort.mp among) with among | among
    · exact ownValid.later (fromInjected.trans after) injection among
    · exact othersValid.later after injection among

variable (lockstep) in
/-- Compilations that number alike, from the first number on. -/
structure Plain : Prop where
  rename : ∀ id, lockstep.rename id = id
  shown : ∀ id, lockstep.Shown id
  kept : ∀ key, lockstep.kept key = none
  otherKept : ∀ key, lockstep.otherKept key = none

/-- Before anything is compiled, two compilations that number alike are in step. -/
theorem related_start (plain : lockstep.Plain) (journal : Journal) :
    lockstep.Related (depthFor lockstep.left) (depthFor lockstep.right) { journal := journal }
      { journal := journal } where
  size := (plain.rename 0).symm
  rules _ bound := nomatch bound
  named _ member := by simp at member
  fits _ member := by simp at member
  fresh id _ := ⟨plain.shown id, by rw [plain.rename, plain.rename]⟩
  numbers _ _ := rfl
  numbered _ _ _ held := nomatch held
  kept key _ := ⟨(plain.kept key).symm, (plain.otherKept key).symm⟩
  patterns := rfl
  journal := rfl
  depth := unnumbered_lt_depthFor ..
  otherDepth := unnumbered_lt_depthFor ..

theorem mapIds_of_plain (plain : ∀ id, lockstep.rename id = id) (rule : Rule) :
    rule.mapIds lockstep.rename = rule := by
  have same : lockstep.rename = id := funext plain
  have table (captures : CaptureTable) : captures.mapIds id = captures := by
    simp [CaptureTable.mapIds]
  rw [same]
  cases rule <;> simp [Rule.mapIds, table]

theorem Related.rules_eq (plain : ∀ id, lockstep.rename id = id)
    (related : lockstep.Related depth otherDepth state other) : other.rules = state.rules := by
  apply Array.ext_getElem?
  intro id
  have size : other.rules.size = state.rules.size := by rw [related.size, plain]
  by_cases bound : id < state.rules.size
  · have same := related.rules id bound
    rw [plain, funext (mapIds_of_plain plain)] at same
    simpa using same
  · rw [Array.getElem?_eq_none (by omega), Array.getElem?_eq_none (by omega)]

end Whole

end Lockstep

/-- The rules of a compiled grammar name rules and patterns that are there. -/
structure Compilation.Fits (compilation : Compilation) : Prop where
  texts : compilation.grammar.patterns = compilation.patterns.map CachedPattern.pattern
  named : ∀ rule ∈ compilation.grammar.rules, ∀ id ∈ rule.ids, id < compilation.grammar.rules.size
  fits : ∀ rule ∈ compilation.grammar.rules, rule.PatternsFit compilation.patterns
  root : compilation.grammar.root < compilation.grammar.rules.size
  injections : ∀ injection ∈ compilation.grammar.injections,
    injection.rule < compilation.grammar.rules.size

namespace Lockstep

variable {lockstep : Lockstep} {scopeName : String} {injectors : List String}
  {grammar otherGrammar : GrammarSource}

/-- Compilations that start in step and number alike give the same, do not want for
depth, and what they give fits together. -/
theorem compile_agree (plain : lockstep.Plain)
    (roots : lockstep.Roots scopeName injectors grammar otherGrammar) (journal : Journal) :
    compile scopeName lockstep.right injectors lockstep.engine journal =
      compile scopeName lockstep.left injectors lockstep.engine journal ∧
    (compile scopeName lockstep.left injectors lockstep.engine journal).1 ≠ .error .outOfSteps ∧
    ∀ compilation,
      (compile scopeName lockstep.left injectors lockstep.engine journal).1 = .ok compilation →
        compilation.Fits := by
  obtain ⟨_, kept, same, good, enough⟩ := pairs_compileAll roots { journal := journal }
    { journal := journal } (.refl _) (related_start plain journal)
  have injection (injection : Injection) : injection.mapId lockstep.rename = injection := by
    simp [Injection.mapId, plain.rename]
  unfold compile
  rcases run : (compileAll scopeName lockstep.left injectors lockstep.engine).run.run
    { journal := journal } with ⟨error | ⟨root, injections⟩, final⟩
  -- Both fail, or both succeed.
  all_goals
    rcases answer : (compileAll scopeName lockstep.right injectors lockstep.engine).run.run
      { journal := journal } with ⟨_ | ⟨otherRoot, otherInjections⟩, otherFinal⟩
    all_goals rw [run, answer] at kept same
  · cases same
    rw [run] at enough
    have journal : otherFinal.journal = final.journal := kept.journal
    exact ⟨by simp only [journal], fun out => enough (by cases out; rfl), by rintro _ ⟨⟩⟩
  · cases same
  · cases same
  · rw [run] at good
    obtain ⟨rootValid, injectionsValid⟩ := good _ rfl
    simp only [Except.map, Prod.map_apply, Except.ok.injEq, Prod.mk.injEq, plain.rename,
      funext injection, List.map_id_fun', id_eq] at same
    obtain ⟨rfl, rfl⟩ := same
    have rules : otherFinal.rules = final.rules := kept.rules_eq plain.rename
    have patterns : otherFinal.patterns = final.patterns := kept.patterns
    have journal : otherFinal.journal = final.journal := kept.journal
    refine ⟨?_, by rintro ⟨⟩, ?_⟩
    · simp only [rules, patterns, journal]
    · rintro _ ⟨⟩
      exact ⟨rfl, fun rule member id among => (kept.named rule member id among).1, kept.fits,
        rootValid.1, fun injection member => (injectionsValid injection member).1⟩

end Lockstep

/-- What a compilation comes by leads to the same in two tables of grammars, and only
to what it comes by. -/
structure Along (left right : Loaded) (Visited : Context → Option Place → Prop) : Prop where
  memberLeft : Visited context place → context.grammar ∈ left.values
  memberRight : Visited context place → context.grammar ∈ right.values
  top : Visited context none → ∀ number ∈ context.grammar.patterns,
    right.held context number = left.held context number ∧
      ∀ inner place, left.held context number = some (inner, place) → Visited inner place
  tried : Visited context (some number) → ∀ rule, context.grammar.rule number = rule →
    ∀ held ∈ rule.triedPlaces,
      right.held (context.inside rule.repository) held =
        left.held (context.inside rule.repository) held ∧
      ∀ inner place, left.held (context.inside rule.repository) held = some (inner, place) →
        Visited inner place
  captured : Visited context (some number) → ∀ rule, context.grammar.rule number = rule →
    ∀ held ∈ rule.capturedPlaces, Visited (context.inside rule.repository) (some held)
  standsFor : Visited context (some number) → ∀ rule, context.grammar.rule number = rule →
    ∀ text, rule.standsFor = some text →
      right.target (context.inside rule.repository) (.ofText text) =
        left.target (context.inside rule.repository) (.ofText text) ∧
      ∀ inner place, left.target (context.inside rule.repository) (.ofText text) =
        some (inner, place) → Visited inner place

namespace Along

variable {left right : Loaded} {Visited : Context → Option Place → Prop}

/-- Something that is looked up alike. -/
theorem matched {found answer : Option (Context × Option Place)}
    (same : answer = found ∧ ∀ inner place, found = some (inner, place) → Visited inner place) :
    Matched (fun context other place => other = context ∧ Visited context place) found answer := by
  obtain ⟨rfl, visited⟩ := same
  cases answer with
  | none => exact .nowhere
  | some node => exact .somewhere ⟨rfl, visited _ _ rfl⟩

/-- Compilations that come by the same, in the same contexts. -/
def lockstep (along : Along left right Visited) (engine : Engine) : Lockstep where
  engine := engine
  left := left
  right := right
  rename id := id
  rename_inj _ _ same := same
  Shown _ := True
  Asked _ := True
  kept _ := none
  otherKept _ := none
  Node context other place := other = context ∧ Visited context place
  asked _ := trivial
  scopeName node := by rw [node.1]
  memberLeft node := along.memberLeft node.2
  memberRight node := node.1 ▸ along.memberRight node.2
  sameRule node := by rw [node.1]
  sameTop node := by rw [node.1]
  top := by
    rintro context _ ⟨rfl, visited⟩ number member
    exact ⟨rfl, matched (along.top visited number member)⟩
  tried := by
    rintro context _ number ⟨rfl, visited⟩ rule same held member
    exact ⟨rfl, matched (along.tried visited rule same held member)⟩
  captured := by
    rintro context _ number ⟨rfl, visited⟩ rule same held member
    exact ⟨rfl, fun _ => ⟨rfl, along.captured visited rule same held member⟩⟩
  standsFor := by
    rintro context _ number ⟨rfl, visited⟩ rule same text refers
    exact matched (along.standsFor visited rule same text refers)

theorem plain_lockstep (along : Along left right Visited) (engine : Engine) :
    (along.lockstep engine).Plain :=
  ⟨fun _ => rfl, fun _ => trivial, fun _ => rfl, fun _ => rfl⟩

end Along

/-- What a rule of a list leads to has what every reference leads to. -/
theorem held_of_target {grammars : Loaded} {context : Context} {Holds : Context → Option Place → Prop}
    (target : ∀ reference inner place, grammars.target context reference = some (inner, place) →
      Holds inner place) {number : Place} (own : Holds context (some number)) (inner : Context)
    (place : Option Place) (found : grammars.held context number = some (inner, place)) :
    Holds inner place := by
  unfold Loaded.held at found
  split at found
  · exact target _ inner place found
  · cases found
    exact own

/-- A compilation comes by grammars of its table alone. -/
theorem Along.diagonal (grammars : Loaded) : Along grammars grammars fun context _ =>
    context.grammar ∈ grammars.values ∧ context.base ∈ grammars.values := by
  have target (context : Context)
      (members : context.grammar ∈ grammars.values ∧ context.base ∈ grammars.values)
      (reference : Reference) (inner : Context) (place : Option Place)
      (found : grammars.target context reference = some (inner, place)) :
      inner.grammar ∈ grammars.values ∧ inner.base ∈ grammars.values := by
    cases reference with
    | self =>
      cases found
      exact members
    | base =>
      cases found
      exact ⟨members.2, members.2⟩
    | inRepository name =>
      obtain ⟨number, _, same⟩ := Option.map_eq_some_iff.mp found
      cases same
      exact members
    | grammar scopeName =>
      obtain ⟨grammar, held, same⟩ := Option.map_eq_some_iff.mp found
      cases same
      exact ⟨Table.mem_values held, members.2⟩
    | inGrammar scopeName name =>
      obtain ⟨grammar, held, found⟩ := Option.bind_eq_some_iff.mp found
      obtain ⟨number, _, same⟩ := Option.map_eq_some_iff.mp found
      cases same
      exact ⟨Table.mem_values held, members.2⟩
  have held (context : Context)
      (members : context.grammar ∈ grammars.values ∧ context.base ∈ grammars.values)
      (number : Place) (inner : Context) (place : Option Place)
      (found : grammars.held context number = some (inner, place)) :
      inner.grammar ∈ grammars.values ∧ inner.base ∈ grammars.values :=
    held_of_target (target context members) members inner place found
  exact {
    memberLeft := fun members => members.1
    memberRight := fun members => members.1
    top := fun members number _ => ⟨rfl, held _ members number⟩
    tried := fun members rule _ number _ => ⟨rfl, held (Context.inside _ rule.repository) members number⟩
    captured := fun members _ _ _ _ => members
    standsFor := fun members rule _ text _ => ⟨rfl, target (Context.inside _ rule.repository) members _⟩ }

/-- A compilation never wants for depth, and whatever it gives fits together. -/
theorem compile_settles (found : grammars.get? scopeName = some grammar) (injectors : List String)
    (engine : Engine) (journal : Journal) :
    (compile scopeName grammars injectors engine journal).1 ≠ .error .outOfSteps ∧
      ∀ compilation, (compile scopeName grammars injectors engine journal).1 = .ok compilation →
        compilation.Fits := by
  have members : grammar ∈ grammars.values ∧ grammar ∈ grammars.values :=
    ⟨Table.mem_values found, Table.mem_values found⟩
  have roots : ((Along.diagonal grammars).lockstep engine).Roots scopeName injectors grammar
      grammar := {
    left := found
    right := found
    root := ⟨rfl, members⟩
    injections := rfl
    own := fun _ _ => ⟨rfl, members⟩
    injected := by
      intro injector _
      change Lockstep.InjectorMatched _ _ _ (grammars.get? injector) (grammars.get? injector)
      cases held : grammars.get? injector with
      | none => exact .missing
      | some injected => exact .injected rfl ⟨rfl, Table.mem_values held, members.2⟩ }
  exact (Lockstep.compile_agree ((Along.diagonal grammars).plain_lockstep engine) roots journal).2

/-- Whatever a grammar is compiled to, its rules name rules and patterns that are
there. -/
theorem compile_fits {compilation : Compilation}
    (compiles : (compile scopeName grammars injectors engine journal).1 = .ok compilation) :
    compilation.Fits := by
  cases found : grammars.get? scopeName with
  | none =>
    unfold compile compileAll at compiles
    rw [found] at compiles
    cases compiles
  | some grammar => exact (compile_settles found injectors engine journal).2 compilation compiles

end ScopeLexer.Grammar

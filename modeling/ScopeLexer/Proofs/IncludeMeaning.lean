import Mathlib.Logic.Relation
import ScopeLexer.Proofs.GroupFlattening
import ScopeLexer.Proofs.LexicalScope

/-! What compiled rules hold. A rule holds what its list says where it is written, in the
order of the list, as far as that can be found. A name in it stands for the rule under this
name in the innermost repository around it. What a rule leads to is what it holds, and what
that leads to. -/
namespace ScopeLexer

open Grammar

namespace Grammar

section Lists

variable {grammars : Loaded} {state : CompilerState} {context : Context} {rule : Rule}

/-- The things that a list of rules leads to, in its order, without those not found. -/
def Loaded.found (grammars : Loaded) (context : Context) (places : List Place) : List Key :=
  places.filterMap fun place => (grammars.held context place).map keyOf

/-- What something holds in a context, in its order. -/
def Loaded.listed (grammars : Loaded) (context : Context) : Option Place → List Key
  | none => grammars.found context context.grammar.patterns
  | some place =>
    let rule := context.grammar.rule place
    let inner := context.inside rule.repository
    match rule.standsFor with
    | some text => ((grammars.target inner (.ofText text)).map keyOf).toList
    | none => grammars.found inner rule.triedPlaces

/-- Whether a rule is entered by a pattern. -/
def RuleSource.hasPattern (rule : RuleSource) : Bool :=
  rule.matchPattern.isSome || rule.beginPattern.isSome

/-- Whether something is entered by a pattern. -/
def Context.hasPattern (context : Context) : Option Place → Bool
  | none => false
  | some place => (context.grammar.rule place).hasPattern

/-- Something is left of what has been compiled. -/
def CompilerState.Fills (state : CompilerState) (key : Key) : Prop :=
  ∀ id rule, state.numbers.get? key = some id → state.rules[id]? = some rule →
    rule.isHollow = false

instance (state : CompilerState) (key : Key) : Decidable (state.Fills key) :=
  decidable_of_iff ((state.numbers.get? key).all fun id =>
    state.rules[id]?.all fun rule => !rule.isHollow) (by
      simp only [CompilerState.Fills, Option.all_eq_true, Bool.not_eq_true']
      exact ⟨fun fills id rule given => fills id given rule,
        fun fills id given rule => fills id rule given⟩)

/-- The numbers of some things, in order. -/
def CompilerState.Numbers (state : CompilerState) (keys : List Key) (ids : List RuleId) : Prop :=
  List.Forall₂ (fun key id => state.numbers.get? key = some id) keys ids

/-- Numbers of two compilations that have been given to the same. -/
def CompilerState.SameSource (left right : CompilerState) (id other : RuleId) : Prop :=
  ∃ key, left.numbers.get? key = some id ∧ right.numbers.get? key = some other

/-- What is listed for some places are the numbers of the rules found there. -/
theorem Listed.numbers (listed : Listed grammars state context places ids)
    (fills : ∀ key ∈ grammars.found context places, state.Fills key) :
    state.Numbers (grammars.found context places) ids := by
  induction listed with
  | nil => exact .nil
  | missing lost _ ih =>
    rw [Loaded.found, List.filterMap_cons_none (by rw [lost]; rfl)] at fills ⊢
    exact ih fills
  | hollow found numbered made hollow _ ih =>
    rw [Loaded.found, List.filterMap_cons_some (by rw [found]; rfl)] at fills
    rw [(List.forall_mem_cons.mp fills).1 _ _ numbered made] at hollow
    cases hollow
  | kept found numbered _ ih =>
    rw [Loaded.found, List.filterMap_cons_some (by rw [found]; rfl)] at fills ⊢
    exact .cons numbered (ih (List.forall_mem_cons.mp fills).2)

/-- A rule has the numbers of what its source holds, if something is left of all that. -/
theorem Made.numbers (made : Made grammars state context place rule)
    (fills : ∀ key ∈ grammars.listed context place, state.Fills key) :
    state.Numbers (grammars.listed context place) rule.patterns := by
  cases made with
  | top inside => exact inside.numbers fills
  | @written place _ spelled =>
    rw [Loaded.listed] at fills ⊢
    cases spelled with
    | single isMatch =>
      simp only [RuleSource.standsFor, RuleSource.triedPlaces, isMatch, Option.isSome_some,
        Bool.true_or, if_true]
      exact .nil
    | block noMatch isStart _ _ _ _ _ inside | region noMatch isStart _ _ _ _ _ inside =>
      simp only [RuleSource.standsFor, RuleSource.triedPlaces, noMatch, isStart, Option.isSome_some,
        Option.isSome_none, Bool.true_or, Bool.or_true, Bool.false_eq_true, if_true, if_false]
        at fills ⊢
      exact inside.numbers fills
    | renamed refers found numbered =>
      simp only [refers, found]
      exact .cons numbered .nil
    | lost refers missing =>
      simp only [refers, missing]
      exact .nil
    | group noMatch _ noReference inside =>
      simp only [RuleSource.triedPlaces, noMatch, noReference, Option.isSome_none,
        Bool.false_eq_true, if_false] at fills ⊢
      exact inside.numbers fills

theorem RuleSource.hasPattern_of_standsFor {rule : RuleSource} (refers : rule.standsFor = some text) :
    rule.hasPattern = false := by
  unfold RuleSource.standsFor at refers
  split at refers
  · cases refers
  next none =>
    simp only [Bool.not_eq_true, Bool.or_eq_false_iff] at none
    rw [hasPattern, none.1.1, none.1.2, Bool.false_or]

theorem RuleSource.triedPlaces_of_standsFor {rule : RuleSource} (refers : rule.standsFor = some text) :
    rule.triedPlaces = [] := by
  unfold RuleSource.standsFor at refers
  split at refers
  · cases refers
  next none =>
    simp only [Bool.not_eq_true, Bool.or_eq_false_iff, Option.isSome_eq_false_iff,
      Option.isNone_iff_eq_none] at none
    simp [triedPlaces, none]

/-- What stands in a list has its number. That is in the list of numbers, unless nothing is
left of what it leads to. -/
theorem Listed.mem (listed : Listed grammars state context places ids) (member : place ∈ places)
    (found : grammars.held context place = some node) :
    ∃ id, state.numberOf node = some id ∧
      (id ∈ ids ∨ ∃ rule, state.rules[id]? = some rule ∧ rule.isHollow = true) := by
  induction listed with
  | nil => cases member
  | missing lost _ ih =>
    rcases List.mem_cons.mp member with rfl | member
    · rw [lost] at found
      cases found
    · exact ih member
  | hollow leads numbered made hollow _ ih =>
    rcases List.mem_cons.mp member with rfl | member
    · cases leads.symm.trans found
      exact ⟨_, numbered, .inr ⟨_, made, hollow⟩⟩
    · exact ih member
  | kept leads numbered _ ih =>
    rcases List.mem_cons.mp member with rfl | member
    · cases leads.symm.trans found
      exact ⟨_, numbered, .inl List.mem_cons_self⟩
    · obtain ⟨id, numbered, kept⟩ := ih member
      exact ⟨id, numbered, kept.imp_left (List.mem_cons_of_mem _)⟩

/-- What a name in a rule leads to has its number, and is in the list of the rule unless nothing
is left of it. -/
theorem Made.uses {place : Place} {name : String} (made : Made grammars state context (some place) rule)
    (uses : context.grammar.Uses place name)
    (found : grammars.target (context.inside (context.grammar.rule place).repository)
      (.inRepository name) = some node) :
    ∃ id, state.numberOf node = some id ∧
      (id ∈ rule.patterns ∨ ∃ rule, state.rules[id]? = some rule ∧ rule.isHollow = true) := by
  obtain ⟨text, names, uses⟩ := uses
  rw [← names] at found
  have spelled : Spelled grammars state (context.inside (context.grammar.rule place).repository)
      (context.grammar.rule place) rule := by
    cases made with
    | written spelled => exact spelled
  rcases uses with refers | ⟨inner, member, refers⟩
  · have plain := RuleSource.hasPattern_of_standsFor refers
    cases spelled with
    | single isMatch => simp [RuleSource.hasPattern, isMatch] at plain
    | block _ isStart | region _ isStart => simp [RuleSource.hasPattern, isStart] at plain
    | renamed also leads numbered =>
      cases refers.symm.trans also
      cases leads.symm.trans found
      exact ⟨_, numbered, .inl (List.mem_singleton.mpr rfl)⟩
    | lost also missing =>
      cases refers.symm.trans also
      cases missing.symm.trans found
    | group _ _ noReference => cases refers.symm.trans noReference
  · have held : grammars.held (context.inside (context.grammar.rule place).repository) inner =
        some node := by simpa only [Loaded.held, Context.inside, refers] using found
    have listed {ids : List RuleId} (noMatch : (context.grammar.rule place).matchPattern = none)
        (listed : Listed grammars state (context.inside (context.grammar.rule place).repository)
          ((context.grammar.rule place).patterns.getD []) ids) := by
      simp only [RuleSource.triedPlaces, noMatch, Option.isSome_none, Bool.false_eq_true,
        if_false] at member
      exact listed.mem member held
    cases spelled with
    | single isMatch => simp [RuleSource.triedPlaces, isMatch] at member
    | block noMatch _ _ _ _ _ _ inside | region noMatch _ _ _ _ _ _ inside =>
      exact listed noMatch inside
    | renamed also | lost also =>
      rw [RuleSource.triedPlaces_of_standsFor also] at member
      cases member
    | group noMatch _ _ inside => exact listed noMatch inside

/-- A rule is entered by a pattern if its source is, and else it only holds others. -/
theorem Made.kind (made : Made grammars state context place rule) :
    rule.entryPattern.isSome = context.hasPattern place ∧
      rule.isGroup = !context.hasPattern place := by
  cases made with
  | top => exact ⟨rfl, rfl⟩
  | written spelled =>
    rw [Context.hasPattern]
    cases spelled with
    | single isMatch =>
      rw [RuleSource.hasPattern, isMatch]
      exact ⟨rfl, rfl⟩
    | block noMatch isStart | region noMatch isStart =>
      rw [RuleSource.hasPattern, noMatch, isStart]
      exact ⟨rfl, rfl⟩
    | renamed refers | lost refers =>
      rw [RuleSource.hasPattern_of_standsFor refers]
      exact ⟨rfl, rfl⟩
    | group noMatch noStart =>
      rw [RuleSource.hasPattern, noMatch, noStart]
      exact ⟨rfl, rfl⟩

end Lists

end Grammar

namespace GrammarSource

variable {grammar : GrammarSource} {chain other : List Place}

/-- The rules around something as it is written. There are none around the top level. -/
def Surrounds (grammar : GrammarSource) (chain : List Place) : Option Place → Prop
  | none => chain = []
  | some place => grammar.Enclosed place chain

theorem Surrounds.unique (orderly : grammar.Orderly) {place : Option Place}
    (first : grammar.Surrounds chain place) (second : grammar.Surrounds other place) :
    chain = other := by
  cases place with
  | none => exact first.trans second.symm
  | some => exact Enclosed.unique orderly first second

end GrammarSource

namespace Grammar.Course

variable {course : Course} {compilation : Compilation} {final : CompilerState} {key : Key}
  {grammar moved : GrammarSource} {chain others : List Place}

/-- Where something is written: in which grammar, and in which rules. -/
structure Stands (course : Course) (key : Key) (grammar : GrammarSource) (chain : List Place) :
    Prop where
  held : course.grammars.get? key.scopeName = some grammar
  surrounds : grammar.Surrounds chain key.place

theorem Stands.unique
    (orderly : ∀ scopeName grammar, course.grammars.get? scopeName = some grammar → grammar.Orderly)
    (first : course.Stands key grammar chain) (second : course.Stands key moved others) :
    grammar = moved ∧ chain = others := by
  have same := first.held.symm.trans second.held
  cases same
  exact ⟨rfl, first.surrounds.unique (orderly _ _ first.held) second.surrounds⟩

/-- Something with a number has become what it says where it is written. A name in it has led
to the rule under this name in the innermost repository around it, and the number of that is
in its list, unless nothing is left of it. -/
structure Lexical (course : Course) (final : CompilerState) (compiled : CompiledGrammar) (key : Key)
    (id : RuleId) (grammar : GrammarSource) (chain : List Place) : Prop where
  stands : course.Stands key grammar chain
  made : Made course.grammars final (.within course.base grammar chain) key.place (compiled.rule id)
  names : ∀ place name inner, key.place = some place → grammar.Uses place name →
    grammar.entry name (place :: chain) = some inner →
    ∃ number, final.numbers.get? ⟨some inner, grammar.scopeName⟩ = some number ∧
      (number ∈ (compiled.rule id).patterns ∨ (compiled.rule number).isHollow = true)

namespace Completes

variable (completes : course.Completes compilation final)
include completes

/-- What has a number has become what it says where it is written. -/
theorem made (tidy : course.Tidy) (found : course.grammars.get? scopeName = some course.base)
    {id : RuleId} (given : final.numbers.get? key = some id) :
    ∃ grammar chain, course.Stands key grammar chain ∧
      Made course.grammars final (.within course.base grammar chain) key.place
        (compilation.grammar.rule id) := by
  obtain ⟨context, same, records⟩ := completes.recorded key id given
  obtain ⟨place, scopeName⟩ := key
  have held := (records.visits.held tidy.keyed found).2
  rw [← same] at held
  cases place with
  | none =>
    obtain ⟨rule, under, made⟩ := records.made
    have situated := records.visits.situated tidy found
    rw [Situated, (records.visits.held tidy.keyed found).1] at situated
    rw [situated] at made
    refine ⟨context.grammar, [], ⟨held, rfl⟩, ?_⟩
    rw [(completes.rule_eq under).2]
    exact made
  | some place =>
    obtain ⟨chain, enclosed, rule, under, made⟩ := records.lexical tidy found
    refine ⟨context.grammar, chain, ⟨held, enclosed⟩, ?_⟩
    rw [(completes.rule_eq under).2]
    exact made

/-- Every rule with a number is what the lexical reading makes of its place. -/
theorem lexical (tidy : course.Tidy) (found : course.grammars.get? scopeName = some course.base)
    {id : RuleId} (given : final.numbers.get? key = some id) :
    ∃ grammar chain, course.Lexical final compilation.grammar key id grammar chain := by
  obtain ⟨grammar, chain, stands, made⟩ := completes.made tidy found given
  refine ⟨grammar, chain, stands, made, fun place name inner here uses entry => ?_⟩
  rw [here] at made
  have target : course.grammars.target ((Context.within course.base grammar chain).inside
      (grammar.rule place).repository) (.inRepository name) =
        some (.within course.base grammar (place :: chain), some inner) := by
    rw [Context.inside_within, Loaded.target, Context.lookup_within, entry]
    rfl
  obtain ⟨number, numbered, kept⟩ := made.uses uses target
  refine ⟨number, numbered, kept.imp_right ?_⟩
  rintro ⟨rule, under, hollow⟩
  rwa [(completes.rule_eq under).2]

end Completes

/-- Something holds another where it is written. -/
def Holds (course : Course) (key inner : Key) : Prop :=
  ∃ grammar chain, course.Stands key grammar chain ∧
    inner ∈ course.grammars.listed (.within course.base grammar chain) key.place

/-- Something leads to another through what it holds. -/
def Reaches (course : Course) : Key → Key → Prop := Relation.ReflTransGen course.Holds

/-- What something leads to is among some things if these hold nothing else. -/
theorem Reaches.among {inner : Key} {closed : List Key}
    (orderly : ∀ scopeName grammar, course.grammars.get? scopeName = some grammar → grammar.Orderly)
    (holds : ∀ key ∈ closed, ∃ grammar chain, course.Stands key grammar chain ∧
      course.grammars.listed (.within course.base grammar chain) key.place ⊆ closed)
    (start : key ∈ closed) (reaches : course.Reaches key inner) : inner ∈ closed := by
  induction reaches with
  | refl => exact start
  | tail _ held ih =>
    obtain ⟨grammar, chain, stands, inside⟩ := holds _ ih
    obtain ⟨_, _, also, member⟩ := held
    obtain ⟨rfl, rfl⟩ := stands.unique orderly also
    exact inside member

end Grammar.Course
end ScopeLexer

import Mathlib.Data.List.Perm.Basic
import ScopeLexer.Proofs.IncludeMeaning

/-! Lists of rules in another order. Whatever the order of its lists, a grammar has the same
rules in the same places, and names stand for the same. So a rule comes to the same where
the lists of rules that it does not lead to stand in another order, though the compiler
may come to it in another way: the rules tried inside it are made from the same sources. Two
things stand against this. The compiler takes names along into a rule that it comes to from
inside another, and it leaves out a rule of which nothing is left only if that rule is
finished. -/
namespace ScopeLexer

open Grammar

namespace Grammar.RuleSource

variable {rule moved : RuleSource}

/-- The rules in the list of a rule in another order. -/
def Shuffled (rule moved : RuleSource) : Prop :=
  ∃ patterns, Option.Rel List.Perm rule.patterns patterns ∧ moved = { rule with patterns := patterns }

namespace Shuffled

theorem refl (rule : RuleSource) : rule.Shuffled rule := by
  refine ⟨rule.patterns, ?_, rfl⟩
  cases rule.patterns with
  | none => exact .none
  | some list => exact .some (.refl list)

variable (shuffled : Shuffled rule moved)
include shuffled

theorem reference : moved.reference = rule.reference := by
  obtain ⟨_, _, rfl⟩ := shuffled
  rfl

theorem repository : moved.repository = rule.repository := by
  obtain ⟨_, _, rfl⟩ := shuffled
  rfl

theorem hasPattern : moved.hasPattern = rule.hasPattern := by
  obtain ⟨_, _, rfl⟩ := shuffled
  rfl

theorem capturedPlaces : moved.capturedPlaces = rule.capturedPlaces := by
  obtain ⟨_, _, rfl⟩ := shuffled
  rfl

theorem patterns : (moved.patterns.getD []).Perm (rule.patterns.getD []) := by
  obtain ⟨patterns, same, rfl⟩ := shuffled
  generalize rule.patterns = old at same
  cases same with
  | none => exact .refl _
  | some perm => exact perm.symm

theorem standsFor : moved.standsFor = rule.standsFor := by
  obtain ⟨patterns, same, rfl⟩ := shuffled
  have present : patterns.isSome = rule.patterns.isSome := by
    generalize rule.patterns = old at same
    cases same <;> rfl
  rw [RuleSource.standsFor, RuleSource.standsFor, present]

theorem triedPlaces : moved.triedPlaces.Perm rule.triedPlaces := by
  have inside := shuffled.patterns
  obtain ⟨patterns, _, rfl⟩ := shuffled
  unfold RuleSource.triedPlaces
  split
  · exact .refl _
  · exact inside

theorem namedPlaces : moved.namedPlaces.Perm rule.namedPlaces := by
  rw [RuleSource.namedPlaces, RuleSource.namedPlaces, RuleSource.heldPlaces, RuleSource.heldPlaces,
    shuffled.capturedPlaces, shuffled.repository]
  exact (shuffled.patterns.append_right _).append_right _

end Shuffled
end Grammar.RuleSource

namespace GrammarSource

variable {grammar moved : GrammarSource} {chain : List Place}

/-- A grammar with the rules of some lists in another order. Those of some things stay. -/
structure Reordered (grammar moved : GrammarSource) (Stays : Option Place → Prop) : Prop where
  scopeName : moved.scopeName = grammar.scopeName
  repository : moved.repository = grammar.repository
  injections : moved.injections = grammar.injections
  size : moved.rules.size = grammar.rules.size
  top : moved.patterns.Perm grammar.patterns
  rule : ∀ place, (grammar.rule place).Shuffled (moved.rule place)
  topStays : Stays none → moved.patterns = grammar.patterns
  ruleStays : ∀ place, Stays (some place) → moved.rule place = grammar.rule place

/-- The list at the top level in another order. -/
theorem reordered_top {Stays : Option Place → Prop} {top : List Place}
    (perm : top.Perm grammar.patterns) (free : ¬ Stays none) :
    grammar.Reordered { grammar with patterns := top } Stays where
  scopeName := rfl
  repository := rfl
  injections := rfl
  size := rfl
  top := perm
  rule place := .refl (grammar.rule place)
  topStays stays := absurd stays free
  ruleStays _ _ := rfl

namespace Reordered

variable {Stays : Option Place → Prop} {name : String} {place owner : Place}
  (reordered : grammar.Reordered moved Stays)
include reordered

theorem startPlaces : moved.startPlaces.Perm grammar.startPlaces := by
  rw [GrammarSource.startPlaces, GrammarSource.startPlaces, GrammarSource.topPlaces,
    GrammarSource.topPlaces, reordered.repository, reordered.injections]
  exact (reordered.top.append_right _).append_right _

theorem declared (name : String) : moved.declared name = grammar.declared name := by
  funext owner
  rw [GrammarSource.declared, GrammarSource.declared, (reordered.rule owner).repository]

theorem entry (name : String) (owners : List Place) :
    moved.entry name owners = grammar.entry name owners := by
  rw [GrammarSource.entry, GrammarSource.entry, reordered.declared, reordered.repository]

theorem enclosed (enclosed : moved.Enclosed place chain) : grammar.Enclosed place chain := by
  induction enclosed with
  | start member => exact .start (reordered.startPlaces.mem_iff.mp member)
  | @inside owner _ _ _ member ih =>
    exact .inside ih ((reordered.rule owner).namedPlaces.mem_iff.mp member)

theorem surrounds {place : Option Place} (surrounds : moved.Surrounds chain place) :
    grammar.Surrounds chain place := by
  cases place with
  | none => exact surrounds
  | some => exact reordered.enclosed surrounds

theorem uses (uses : moved.Uses place name) : grammar.Uses place name := by
  obtain ⟨text, names, refers | ⟨inner, member, refers⟩⟩ := uses
  · rw [(reordered.rule place).standsFor] at refers
    exact ⟨text, names, .inl refers⟩
  · rw [(reordered.rule inner).reference] at refers
    exact ⟨text, names, .inr ⟨inner, (reordered.rule place).triedPlaces.mem_iff.mp member, refers⟩⟩

theorem leads (leads : moved.Leads owner place) : grammar.Leads owner place := by
  induction leads with
  | here => exact .here
  | @held place inner _ member ih =>
    refine .held ih ?_
    rw [(reordered.rule place).capturedPlaces] at member
    exact ((reordered.rule place).triedPlaces.append_right _).mem_iff.mp member
  | named _ enclosed uses found ih =>
    rw [reordered.entry] at found
    exact .named ih (reordered.enclosed enclosed) (reordered.uses uses) found

theorem contained (contained : grammar.Contained) : moved.Contained := by
  intro owner place name chain leads enclosed uses declares
  rw [reordered.declared] at declares
  exact contained owner place name chain (reordered.leads leads) (reordered.enclosed enclosed)
    (reordered.uses uses) declares

/-- The places named are the same, in another order. -/
theorem namedPlaces : moved.namedPlaces.Perm grammar.namedPlaces := by
  have each (source : GrammarSource) :
      source.rules.toList = (List.range source.rules.size).map source.rule := by
    apply List.ext_getElem?
    intro place
    by_cases bound : place < source.rules.size
    · simp [bound, GrammarSource.rule]
    · simp [bound]
  rw [GrammarSource.namedPlaces, GrammarSource.namedPlaces, each, each, List.flatMap_map,
    List.flatMap_map, reordered.size]
  exact reordered.startPlaces.append
    (List.Perm.flatMap_left _ fun place _ => (reordered.rule place).namedPlaces)

theorem orderly (orderly : grammar.Orderly) : moved.Orderly where
  inside place member := by
    rw [reordered.size]
    exact orderly.inside place (reordered.namedPlaces.mem_iff.mp member)
  once := reordered.namedPlaces.nodup_iff.mpr orderly.once

theorem hasPattern (base other : GrammarSource) (place : Option Place) :
    (Context.within other moved chain).hasPattern place =
      (Context.within base grammar chain).hasPattern place := by
  cases place with
  | none => rfl
  | some place => exact (reordered.rule place).hasPattern

end Reordered
end GrammarSource

namespace Grammar.Course

variable {course : Course} {compilation : Compilation} {final : CompilerState} {key : Key}
  {grammar moved : GrammarSource}

/-- A compilation with the rules of some lists in another order. Those of some things stay. -/
def Reorders (course other : Course) (Stays : Key → Prop) : Prop :=
  ∀ scopeName, Option.Rel
    (fun grammar moved : GrammarSource =>
      grammar.Reordered moved fun place => Stays ⟨place, scopeName⟩)
    (course.grammars.get? scopeName) (other.grammars.get? scopeName)

namespace Reorders

variable {other : Course} {Stays : Key → Prop} (reorders : course.Reorders other Stays)
include reorders

theorem find (held : other.grammars.get? scopeName = some moved) :
    ∃ grammar, course.grammars.get? scopeName = some grammar ∧
      grammar.Reordered moved fun place => Stays ⟨place, scopeName⟩ := by
  have both := reorders scopeName
  rw [held] at both
  generalize course.grammars.get? scopeName = first at both
  cases both with
  | some reordered => exact ⟨_, rfl, reordered⟩

theorem tidy (tidy : course.Tidy) : other.Tidy where
  keyed scopeName moved held := by
    obtain ⟨grammar, found, reordered⟩ := reorders.find held
    rw [reordered.scopeName]
    exact tidy.keyed scopeName grammar found
  orderly scopeName moved held := by
    obtain ⟨grammar, found, reordered⟩ := reorders.find held
    exact reordered.orderly (tidy.orderly scopeName grammar found)
  contained scopeName moved held := by
    obtain ⟨grammar, found, reordered⟩ := reorders.find held
    exact reordered.contained (tidy.contained scopeName grammar found)

section Resolving

variable {Kept : Option Place → Prop} (reordered : grammar.Reordered moved Kept)
  (same : other.base.scopeName = course.base.scopeName)
include reordered same

/-- A reference leads to the same, whatever the order. -/
theorem target (owners : List Place) (reference : Reference) :
    (other.grammars.target (.within other.base moved owners) reference).map keyOf =
      (course.grammars.target (.within course.base grammar owners) reference).map keyOf := by
  cases reference with
  | self => simp [Loaded.target, keyOf, Context.top, Context.within, reordered.scopeName]
  | base => simp [Loaded.target, keyOf, Context.top, Context.within, same]
  | inRepository name =>
    rw [Loaded.target, Loaded.target, Context.lookup_within, Context.lookup_within, reordered.entry,
      Option.map_map, Option.map_map]
    simp [Function.comp_def, keyOf, Context.within, reordered.scopeName]
  | grammar scopeName =>
    rw [Loaded.target, Loaded.target]
    have both := reorders scopeName
    generalize course.grammars.get? scopeName = first, other.grammars.get? scopeName = second at both
    cases both with
    | none => rfl
    | some moves => simp [keyOf, Context.top, moves.scopeName]
  | inGrammar scopeName name =>
    rw [Loaded.target, Loaded.target]
    have both := reorders scopeName
    generalize course.grammars.get? scopeName = first, other.grammars.get? scopeName = second at both
    cases both with
    | none => rfl
    | some moves =>
      simp [keyOf, Context.top, moves.scopeName, moves.repository, Function.comp_def]

/-- A list leads to the same keys in both grammars. -/
theorem found (owners places : List Place) :
    other.grammars.found (.within other.base moved owners) places =
      course.grammars.found (.within course.base grammar owners) places := by
  apply List.filterMap_congr
  intro place _
  have refers : (moved.rule place).reference = (grammar.rule place).reference :=
    (reordered.rule place).reference
  rw [Loaded.held, Loaded.held]
  simp only [Context.within] at refers ⊢
  rw [refers]
  split
  · exact reorders.target reordered same owners _
  · simp [keyOf, reordered.scopeName]

end Resolving

/-- What stays holds the same. -/
theorem listed {key : Key} (stays : Stays key)
    (reordered : grammar.Reordered moved fun place => Stays ⟨place, key.scopeName⟩)
    (same : other.base.scopeName = course.base.scopeName) (chain : List Place) :
    other.grammars.listed (.within other.base moved chain) key.place =
      course.grammars.listed (.within course.base grammar chain) key.place := by
  obtain ⟨place, scopeName⟩ := key
  cases place with
  | none =>
    have top : (Context.within other.base moved chain).grammar.patterns = grammar.patterns :=
      reordered.topStays stays
    rw [Loaded.listed, Loaded.listed, top]
    exact reorders.found reordered same chain _
  | some place =>
    have rule : (Context.within other.base moved chain).grammar.rule place = grammar.rule place :=
      reordered.ruleStays place stays
    have inside := Context.inside_within other.base moved chain place
    rw [reordered.ruleStays place stays] at inside
    have own : (Context.within course.base grammar chain).grammar.rule place = grammar.rule place := rfl
    rw [Loaded.listed, Loaded.listed]
    simp only [rule, own, inside, Context.inside_within]
    split
    · rw [reorders.target reordered same]
    · exact reorders.found reordered same _ _

end Reorders

section Comparing

variable {other : Course} {otherCompilation : Compilation} {otherFinal : CompilerState}

/-- Numbers that have been given to the same, which something leads to. -/
def Goes (course : Course) (left right : CompilerState) (key : Key) (id other : RuleId) : Prop :=
  ∃ inner, course.Reaches key inner ∧ left.numbers.get? inner = some id ∧
    right.numbers.get? inner = some other

/-- Numbers for the same keys in both states go together. -/
theorem goes_of_numbers {keys : List Key} {left right : CompilerState}
    (reaches : ∀ inner ∈ keys, course.Reaches key inner) (first : left.Numbers keys ids)
    (second : right.Numbers keys others) : List.Forall₂ (course.Goes left right key) ids others := by
  unfold CompilerState.Numbers at first second
  induction keys generalizing ids others with
  | nil =>
    cases first
    cases second
    exact .nil
  | cons inner keys ih =>
    cases first with
    | cons one first =>
      cases second with
      | cons two second =>
        obtain ⟨reached, rest⟩ := List.forall_mem_cons.mp reaches
        exact .cons ⟨inner, reached, one, two⟩ (ih rest first second)

variable (tidy : course.Tidy) (found : course.grammars.get? scopeName = some course.base)
  (otherFound : other.grammars.get? scopeName = some other.base)
  (completes : course.Completes compilation final)
  (otherCompletes : other.Completes otherCompilation otherFinal)
include tidy found otherFound completes otherCompletes

/-- What something has become in two compilations that differ in the order of lists. -/
theorem Reorders.made {Stays : Key → Prop} (reorders : course.Reorders other Stays)
    {inner : Key} {id otherId : RuleId} (given : final.numbers.get? inner = some id)
    (also : otherFinal.numbers.get? inner = some otherId) :
    ∃ grammar moved chain, course.Stands inner grammar chain ∧
      (grammar.Reordered moved fun place => Stays ⟨place, inner.scopeName⟩) ∧
      Made course.grammars final (.within course.base grammar chain) inner.place
        (compilation.grammar.rule id) ∧
      Made other.grammars otherFinal (.within other.base moved chain) inner.place
        (otherCompilation.grammar.rule otherId) := by
  obtain ⟨grammar, chain, stands, made⟩ := completes.made tidy found given
  obtain ⟨moved, others, also, otherMade⟩ :=
    otherCompletes.made (reorders.tidy tidy) otherFound also
  obtain ⟨held, under, reordered⟩ := reorders.find also.held
  -- Another order leaves a rule inside the rules that it is in, and it is in no others.
  obtain ⟨rfl, rfl⟩ := stands.unique tidy.orderly ⟨under, reordered.surrounds also.surrounds⟩
  exact ⟨grammar, moved, chain, stands, reordered, made, otherMade⟩

/-- Walks over what something leads to do the same in both compilations. -/
theorem Reorders.joined (reorders : course.Reorders other (course.Reaches key))
    (fills : ∀ inner, course.Reaches key inner → final.Fills inner)
    (otherFills : ∀ inner, course.Reaches key inner → otherFinal.Fills inner) :
    CompiledGrammar.Joined compilation.grammar otherCompilation.grammar
      (course.Goes final otherFinal key) where
  unique := by
    rintro id held other moved ⟨inner, _, given, also⟩ ⟨next, _, nextGiven, nextAlso⟩
    constructor
    · rintro rfl
      cases completes.distinct.injective _ _ _ given nextGiven
      exact Option.some.inj (also.symm.trans nextAlso)
    · rintro rfl
      cases otherCompletes.distinct.injective _ _ _ also nextAlso
      exact Option.some.inj (given.symm.trans nextGiven)
  noted := by
    rintro id other ⟨inner, _, given, also⟩
    obtain ⟨grammar, moved, chain, _, reordered, made, otherMade⟩ :=
      reorders.made tidy found otherFound completes otherCompletes given also
    rw [made.kind.1, otherMade.kind.1, reordered.hasPattern]
  entered := by
    rintro id other ⟨inner, _, given, also⟩
    obtain ⟨grammar, moved, chain, _, reordered, made, otherMade⟩ :=
      reorders.made tidy found otherFound completes otherCompletes given also
    rw [made.kind.2, otherMade.kind.2, reordered.hasPattern]
  inner := by
    rintro id otherId ⟨inner, reached, given, also⟩
    obtain ⟨grammar, moved, chain, stands, reordered, made, otherMade⟩ :=
      reorders.made tidy found otherFound completes otherCompletes given also
    have bases : other.base.scopeName = course.base.scopeName := by
      rw [tidy.keyed _ _ found, (reorders.tidy tidy).keyed _ _ otherFound]
    have reaches : ∀ next ∈ course.grammars.listed (.within course.base grammar chain) inner.place,
        course.Reaches key next :=
      fun next member => reached.tail ⟨grammar, chain, stands, member⟩
    -- What it holds is the same list of things on both sides, each with a number of its own there.
    have same := reorders.listed reached reordered bases chain
    have numbers := otherMade.numbers fun next member =>
      otherFills next (reaches next (same ▸ member))
    rw [same] at numbers
    exact goes_of_numbers reaches (made.numbers fun next member => fills next (reaches next member))
      numbers

end Comparing

section Alone

/-- The compilation of a grammar that needs no other. -/
def alone (grammar : GrammarSource) : Course where
  grammars := ⟨[(grammar.scopeName, grammar)]⟩
  base := grammar
  injectors := []
  engine := Regex.backtracking

theorem alone_found (grammar : GrammarSource) :
    (alone grammar).grammars.get? grammar.scopeName = some (alone grammar).base := by
  simp [alone, Table.get?]

theorem alone_get? {held : GrammarSource}
    (found : (alone grammar).grammars.get? scopeName = some held) :
    scopeName = grammar.scopeName ∧ held = grammar := by
  simp only [alone, Table.get?, List.lookup_cons, List.lookup_nil] at found
  split at found
  next same =>
    cases found
    exact ⟨eq_of_beq same, rfl⟩
  next => cases found

theorem alone_orderly (orderly : grammar.Orderly) : ∀ scopeName held,
    (alone grammar).grammars.get? scopeName = some held → held.Orderly := by
  intro scopeName held found
  obtain ⟨_, rfl⟩ := alone_get? found
  exact orderly

theorem alone_tidy (orderly : grammar.Orderly) (contained : grammar.Contained) :
    (alone grammar).Tidy where
  keyed scopeName held found := by
    obtain ⟨rfl, rfl⟩ := alone_get? found
    rfl
  orderly := alone_orderly orderly
  contained scopeName held found := by
    obtain ⟨_, rfl⟩ := alone_get? found
    exact contained

theorem alone_reorders {Stays : Key → Prop}
    (reordered : grammar.Reordered moved fun place => Stays ⟨place, grammar.scopeName⟩) :
    (alone grammar).Reorders (alone moved) Stays := by
  intro scopeName
  simp only [alone, Table.get?, List.lookup_cons, List.lookup_nil, reordered.scopeName]
  split
  next here =>
    cases eq_of_beq here
    exact .some reordered
  next => exact .none

/-- What a compilation that succeeds tries inside a rule. -/
theorem ok_of_candidates {result : Except CompileError Compilation} {id : RuleId}
    {ids : List RuleId}
    (tried : (result.toOption.map fun compilation => compilation.grammar.candidates id) = some ids) :
    ∃ compilation, result = .ok compilation ∧ compilation.grammar.candidates id = ids := by
  cases result with
  | error error => cases tried
  | ok compilation => exact ⟨compilation, rfl, Option.some.inj tried⟩

end Alone
end Grammar.Course

namespace Grammar

/-- Includes are resolved where they are written, if names stay at home. In a compilation
that succeeds, everything with a number has become what it says inside the rules around
it: a name in it stands for the rule in the innermost repository that has the name. So the
rules tried inside it do not depend on the way to it. In another compilation, with the lists of
what it does not lead to in any other order, they are made from the same sources, if in
neither it leads to anything of which nothing is left. -/
theorem includes_resolve_where_written (course : Course) (scopeName : String) (journal : Journal)
    (compilation : Compilation) (tidy : course.Tidy)
    (found : course.grammars.get? scopeName = some course.base)
    (compiles : (compile scopeName course.grammars course.injectors course.engine journal).1 =
      .ok compilation) :
    let final := course.finalState scopeName journal
    (∀ key id, final.numbers.get? key = some id →
      ∃ grammar chain, course.Lexical final compilation.grammar key id grammar chain) ∧
    ∀ (other : Course) (otherJournal : Journal) (otherCompilation : Compilation) (key : Key)
      (id otherId : RuleId),
      let otherFinal := other.finalState scopeName otherJournal
      course.Reorders other (course.Reaches key) →
      other.grammars.get? scopeName = some other.base →
      (compile scopeName other.grammars other.injectors other.engine otherJournal).1 =
        .ok otherCompilation →
      final.numbers.get? key = some id → otherFinal.numbers.get? key = some otherId →
      (∀ inner, course.Reaches key inner → final.Fills inner ∧ otherFinal.Fills inner) →
      List.Forall₂ (final.SameSource otherFinal) (compilation.grammar.candidates id)
        (otherCompilation.grammar.candidates otherId) := by
  intro final
  have completes := Course.completes found compiles
  refine ⟨fun key id given => completes.lexical tidy found given, ?_⟩
  intro other otherJournal otherCompilation key id otherId otherFinal reorders otherFound
    otherCompiles given also fills
  have otherCompletes := Course.completes otherFound otherCompiles
  have joined := reorders.joined tidy found otherFound completes otherCompletes
    (fun inner reached => (fills inner reached).1) (fun inner reached => (fills inner reached).2)
  refine (joined.candidates ⟨key, .refl, given, also⟩ (completes.tries given).1
    (otherCompletes.tries also).1).imp ?_
  rintro _ _ ⟨inner, _, given, also⟩
  exact ⟨inner, given, also⟩

namespace Shadowing

open Course

/-- A grammar in which a name stands for a rule at the top level, and for another one inside a
rule that has a repository. `text` is what this rule includes, and another rule includes the name
at the top level. -/
def grammar (text : String) (top : List Place) : GrammarSource where
  scopeName := "source.x"
  patterns := top
  repository := some ⟨[("item", 4), ("shared", 6)]⟩
  rules := #[{ reference := some text }, { matchPattern := some "b" },
    { patterns := some [0], repository := some ⟨[("item", 1)]⟩ }, { reference := some "#shared" },
    { matchPattern := some "a" }, { reference := some "#item" }, { patterns := some [5] }]

/-- A document that is read as the grammar where the rule includes the name itself. -/
def document : String :=
  "\x7b\"scopeName\": \"source.x\", " ++
    "\"patterns\": [\x7b\"patterns\": [\x7b\"include\": \"#item\"\x7d], " ++
      "\"repository\": \x7b\"item\": \x7b\"match\": \"b\"\x7d\x7d\x7d, \x7b\"include\": \"#shared\"\x7d], " ++
    "\"repository\": \x7b\"item\": \x7b\"match\": \"a\"\x7d, " ++
      "\"shared\": \x7b\"patterns\": [\x7b\"include\": \"#item\"\x7d]\x7d\x7d\x7d"

/-- The rule that includes the name at the top level. -/
def shared : Key := ⟨some 6, "source.x"⟩

/-- The rule that the name stands for there. -/
def item : Key := ⟨some 4, "source.x"⟩

theorem orderly (text : String) : (grammar text [2, 3]).Orderly where
  inside := (by decide : ∀ place ∈ [2, 3, 4, 6, 0, 1, 5], place < 7)
  once := (by decide : [2, 3, 4, 6, 0, 1, 5].Nodup)

theorem enclosed_shared (text : String) : (grammar text [2, 3]).Enclosed 6 [] :=
  .start (by decide : 6 ∈ [2, 3, 4, 6])

theorem reaches {inner : Key} (text : String)
    (reaches : (alone (grammar text [2, 3])).Reaches shared inner) : inner ∈ [shared, item] := by
  refine reaches.among (alone_orderly (orderly text)) ?_ (by decide)
  intro key member
  refine ⟨grammar text [2, 3], [], ?_⟩
  rcases List.mem_cons.mp member with rfl | member
  · exact ⟨⟨alone_found _, enclosed_shared text⟩, (by decide : [item] ⊆ [shared, item])⟩
  · cases List.mem_singleton.mp member
    exact ⟨⟨alone_found _, .start (by decide : 4 ∈ [2, 3, 4, 6])⟩,
      (by decide : [] ⊆ [shared, item])⟩

theorem reorders (text : String) : (alone (grammar text [2, 3])).Reorders
    (alone (grammar text [3, 2])) ((alone (grammar text [2, 3])).Reaches shared) :=
  alone_reorders (GrammarSource.reordered_top (.swap 2 3 []) fun top =>
    (by decide : ⟨none, "source.x"⟩ ∉ [shared, item]) (reaches text top))

/-- The rule that has the repository leads to what is in it, if it includes the name. -/
theorem leads {place : Place} (leads : (grammar "#item" [2, 3]).Leads 2 place) :
    place ∈ [0, 1, 2] := by
  induction leads with
  | here => decide
  | held _ member ih =>
    have inside : ∀ place ∈ [0, 1, 2], ∀ inner ∈ ((grammar "#item" [2, 3]).rule place).triedPlaces ++
        ((grammar "#item" [2, 3]).rule place).capturedPlaces, inner ∈ [0, 1, 2] := by decide
    exact inside _ ih _ member
  | @named place chain inner name _ enclosed uses found ih =>
    have used : ∀ place ∈ [0, 1, 2], ∀ name ∈ (grammar "#item" [2, 3]).usedNames place,
        place ≠ 1 ∧ name = "item" := by decide
    obtain ⟨apart, rfl⟩ := used _ ih _ (GrammarSource.uses_iff.mp uses)
    simp only [List.mem_cons, List.not_mem_nil, or_false] at ih
    rcases ih with rfl | rfl | rfl
    · cases enclosed.unique (orderly _) (.inside (.start (by decide)) (by decide) :
        (grammar "#item" [2, 3]).Enclosed 0 [2])
      cases found
      decide
    · exact absurd rfl apart
    · cases found
      decide

/-- All rules of the grammar are inside it, so the theorem applies to it. -/
theorem contained : (grammar "#item" [2, 3]).Contained := by
  intro owner place name chain leads enclosed uses declares
  -- Only one rule has a repository, and it has one name.
  have only : owner = 2 ∧ name = "item" := by
    match owner with
    | 0 | 1 | 3 | 4 | 5 | 6 | _ + 7 => cases declares
    | 2 =>
      have declares : (List.lookup name [("item", 1)]).isSome := declares
      rw [List.lookup_cons] at declares
      split at declares
      next same => exact ⟨rfl, eq_of_beq same⟩
      next => cases declares
  obtain ⟨rfl, rfl⟩ := only
  have inside := Shadowing.leads leads
  simp only [List.mem_cons, List.not_mem_nil, or_false] at inside
  rcases inside with rfl | rfl | rfl
  · cases enclosed.unique (orderly _) (.inside (.start (by decide)) (by decide) :
      (grammar "#item" [2, 3]).Enclosed 0 [2])
    decide
  · exact absurd (GrammarSource.uses_iff.mp uses) (by decide)
  · exact List.mem_cons_self

end Shadowing

open Course Regex Shadowing in
/-- Where the rule that has the repository includes the name, the name stands for the inner
rule there and for the outer one elsewhere, and that does not depend on which comes first. -/
theorem includes_resolve_where_written_shadowed :
    let left := alone (grammar "#item" [2, 3])
    let right := alone (grammar "#item" [3, 2])
    left.Tidy ∧ ∃ compilation otherCompilation,
      (compile "source.x" left.grammars [] backtracking {}).1 = .ok compilation ∧
      (compile "source.x" right.grammars [] backtracking {}).1 = .ok otherCompilation ∧
      compilation.grammar.candidates 3 = [4] ∧ otherCompilation.grammar.candidates 1 = [2] ∧
      (left.finalState "source.x" {}).SameSource (right.finalState "source.x" {}) 4 2 ∧
      ∃ source chain,
        left.Lexical (left.finalState "source.x" {}) compilation.grammar shared 3 source chain := by
  intro left right
  have read : (GrammarSource.ofText document).toOption = some (grammar "#item" [2, 3]) := by
    decide +kernel
  have tidy : left.Tidy := alone_tidy (GrammarSource.orderly_of_toOption read) contained
  obtain ⟨compilation, compiles, tried⟩ := ok_of_candidates (by decide +kernel :
    ((compile "source.x" left.grammars [] backtracking {}).1.toOption.map
      fun compilation => compilation.grammar.candidates 3) = some [4])
  obtain ⟨otherCompilation, otherCompiles, otherTried⟩ := ok_of_candidates (by decide +kernel :
    ((compile "source.x" right.grammars [] backtracking {}).1.toOption.map
      fun compilation => compilation.grammar.candidates 1) = some [2])
  have given : (left.finalState "source.x" {}).numbers.get? shared = some 3 := by decide +kernel
  have also : (right.finalState "source.x" {}).numbers.get? shared = some 1 := by decide +kernel
  have fills : ∀ inner ∈ [shared, item], (left.finalState "source.x" {}).Fills inner ∧
      (right.finalState "source.x" {}).Fills inner := by decide +kernel
  obtain ⟨written, alike⟩ :=
    includes_resolve_where_written left "source.x" {} compilation tidy (alone_found _) compiles
  have same := alike right {} otherCompilation shared 3 1 (reorders _) (alone_found _) otherCompiles
    given also fun inner reached => fills inner (reaches _ reached)
  rw [tried, otherTried] at same
  refine ⟨tidy, compilation, otherCompilation, compiles, otherCompiles, tried, otherTried, ?_,
    written shared 3 given⟩
  cases same with
  | cons same => exact same

/-- The rules tried inside something are made from other sources in another compilation. -/
def Course.Apart (course other : Course) (scopeName : String) (key : Key) : Prop :=
  let final := course.finalState scopeName {}
  let otherFinal := other.finalState scopeName {}
  ∃ compilation otherCompilation id otherId,
    (compile scopeName course.grammars course.injectors course.engine {}).1 = .ok compilation ∧
    (compile scopeName other.grammars other.injectors other.engine {}).1 = .ok otherCompilation ∧
    final.numbers.get? key = some id ∧ otherFinal.numbers.get? key = some otherId ∧
    ¬ List.Forall₂ (final.SameSource otherFinal) (compilation.grammar.candidates id)
      (otherCompilation.grammar.candidates otherId)

namespace Hollow

open Course

/-- A grammar with a rule that holds one rule, which is not there. A group of its end leads back
to it through another rule. -/
def grammar (top : List Place) : GrammarSource where
  scopeName := "source.x"
  patterns := top
  repository := some ⟨[("block", 3), ("shared", 5)]⟩
  rules := #[{ reference := some "#missing" }, { reference := some "#shared" },
    { patterns := some [1] },
    { beginPattern := some "b", endPattern := some "e", endCaptures := some ⟨[("0", 2)]⟩,
      patterns := some [0] },
    { reference := some "#block" }, { patterns := some [4] }, { reference := some "#block" },
    { reference := some "#shared" }]

/-- The rule that leads back. -/
def shared : Key := ⟨some 5, "source.x"⟩

theorem orderly : (grammar [6, 7]).Orderly := ⟨by decide, by decide⟩

theorem contained : (grammar [6, 7]).Contained := by
  intro owner place name chain leads enclosed uses declares
  match owner with
  | 0 | 1 | 2 | 3 | 4 | 5 | 6 | 7 | _ + 8 => cases declares

theorem reaches {inner : Key} (reaches : (alone (grammar [6, 7])).Reaches shared inner) :
    inner ∈ [shared, ⟨some 3, "source.x"⟩] := by
  refine reaches.among (alone_orderly orderly) ?_ List.mem_cons_self
  intro key member
  refine ⟨grammar [6, 7], [], ?_⟩
  rcases List.mem_cons.mp member with rfl | member
  · exact ⟨⟨alone_found _, .start (by decide)⟩, by decide⟩
  · cases List.mem_singleton.mp member
    exact ⟨⟨alone_found _, .start (by decide)⟩, by decide⟩

theorem reorders : (alone (grammar [6, 7])).Reorders (alone (grammar [7, 6]))
    ((alone (grammar [6, 7])).Reaches shared) :=
  alone_reorders (GrammarSource.reordered_top (.swap 6 7 []) fun top =>
    absurd (reaches top) (by decide))

end Hollow

open Course Regex in
/-- Neither condition can be left out. A rule that is included from inside a rule with a
repository takes its names from there if it is compiled first, so it is made from another
source than where that comes later. And a rule of which nothing is left stays in a list that is
compiled before the rule is finished. -/
theorem includes_resolve_on_the_way :
    (let source := Shadowing.grammar "#shared" [2, 3]
      let left := alone source
      let right := alone (Shadowing.grammar "#shared" [3, 2])
      source.Orderly ∧ source.Enclosed 6 [] ∧ source.Uses 6 "item" ∧
      source.entry "item" [6] = some 4 ∧
      (left.finalState "source.x" {}).numbers.get? Shadowing.item = none ∧
      left.Reorders right (left.Reaches Shadowing.shared) ∧
      (∀ inner, left.Reaches Shadowing.shared inner →
        (left.finalState "source.x" {}).Fills inner ∧ (right.finalState "source.x" {}).Fills inner) ∧
      left.Apart right "source.x" Shadowing.shared) ∧
    (let left := alone (Hollow.grammar [6, 7])
      let right := alone (Hollow.grammar [7, 6])
      left.Tidy ∧ left.Reorders right (left.Reaches Hollow.shared) ∧
      left.Apart right "source.x" Hollow.shared) := by
  constructor
  · intro source left right
    have fills : ∀ inner ∈ [Shadowing.shared, Shadowing.item],
        (left.finalState "source.x" {}).Fills inner ∧
          (right.finalState "source.x" {}).Fills inner := by decide +kernel
    refine ⟨Shadowing.orderly _, Shadowing.enclosed_shared _, GrammarSource.uses_iff.mpr (by decide),
      by decide, by decide +kernel, Shadowing.reorders _,
      fun inner reached => fills inner (Shadowing.reaches _ reached), ?_⟩
    obtain ⟨compilation, compiles, tried⟩ := ok_of_candidates (by decide +kernel :
      ((compile "source.x" left.grammars [] backtracking {}).1.toOption.map
        fun compilation => compilation.grammar.candidates 2) = some [3])
    obtain ⟨otherCompilation, otherCompiles, otherTried⟩ := ok_of_candidates (by decide +kernel :
      ((compile "source.x" right.grammars [] backtracking {}).1.toOption.map
        fun compilation => compilation.grammar.candidates 1) = some [2])
    refine ⟨compilation, otherCompilation, 2, 1, compiles, otherCompiles, by decide +kernel,
      by decide +kernel, fun same => ?_⟩
    rw [tried, otherTried] at same
    obtain ⟨⟨key, given, also⟩, _⟩ := List.forall₂_cons.mp same
    -- What is tried on the left is the rule of the inner repository, which the right never comes to.
    have inside : (left.finalState "source.x" {}).numbers.get? ⟨some 1, "source.x"⟩ = some 3 := by
      decide +kernel
    cases (Course.completes (alone_found source) compiles).distinct.injective _ _ _ given inside
    have missing : (right.finalState "source.x" {}).numbers.get? ⟨some 1, "source.x"⟩ = none := by
      decide +kernel
    cases missing.symm.trans also
  · intro left right
    refine ⟨alone_tidy Hollow.orderly Hollow.contained, Hollow.reorders, ?_⟩
    obtain ⟨compilation, compiles, tried⟩ := ok_of_candidates (by decide +kernel :
      ((compile "source.x" left.grammars [] backtracking {}).1.toOption.map
        fun compilation => compilation.grammar.candidates 3) = some [1])
    obtain ⟨otherCompilation, otherCompiles, otherTried⟩ := ok_of_candidates (by decide +kernel :
      ((compile "source.x" right.grammars [] backtracking {}).1.toOption.map
        fun compilation => compilation.grammar.candidates 1) = some [])
    refine ⟨compilation, otherCompilation, 3, 1, compiles, otherCompiles, by decide +kernel,
      by decide +kernel, fun same => ?_⟩
    rw [tried, otherTried] at same
    cases same

end Grammar
end ScopeLexer

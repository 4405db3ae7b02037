import ScopeLexer.Proofs.CompilationAgreement
import ScopeLexer.Proofs.DependencyRounds
import ScopeLexer.Proofs.SourceOrder

/-! A grammar with one of its injected rules put into a list of its own. The rule has a place
of its own, which nothing but the injection names; so a compilation that starts anywhere else
comes by the same rules in the grammar with the list as in the grammar without it, and comes
neither by the rule nor by the list. -/
namespace ScopeLexer

open Grammar Pattern Regex

namespace GrammarSource

/-- The grammar with the rule at a place inside a list of its own, where it is injected. -/
def wrap (grammar : GrammarSource) (place : Place) : GrammarSource :=
  { grammar with
    rules := grammar.rules.push { patterns := some [place] }
    injections := grammar.injections.map (·.map fun held =>
      if held = place then grammar.rules.size else held) }

theorem rule_wrap {grammar : GrammarSource} (place : Place) {number : Place}
    (apart : number ≠ grammar.rules.size) :
    (grammar.wrap place).rule number = grammar.rule number := by
  simp only [rule, wrap, Array.getElem?_push, if_neg apart]

theorem rule_wrap_size (grammar : GrammarSource) (place : Place) :
    (grammar.wrap place).rule grammar.rules.size = { patterns := some [place] } := by
  simp [rule, wrap]

end GrammarSource

namespace Grammar

/-- An injection of a grammar whose rule is put into a list of its own, and the grammars that
it is compiled with. The rule is a list itself. The grammar is orderly, as all grammars are
that are read from documents. -/
structure Wrapping where
  grammars : Loaded
  keyed : ∀ scopeName grammar, grammars.get? scopeName = some grammar →
    grammar.scopeName = scopeName
  base : GrammarSource
  held : grammars.get? base.scopeName = some base
  orderly : base.Orderly
  place : Place
  selector : String
  before : List (String × Place)
  after : List (String × Place)
  injections : base.injections = some ⟨before ++ (selector, place) :: after⟩
  noMatch : (base.rule place).matchPattern = none
  noStart : (base.rule place).beginPattern = none
  noReference : (base.rule place).reference = none

namespace Wrapping

variable (wrapping : Wrapping)

def wrapped : GrammarSource := wrapping.base.wrap wrapping.place

/-- What becomes of a grammar. -/
def moved (grammar : GrammarSource) : GrammarSource :=
  if grammar.scopeName = wrapping.base.scopeName then wrapping.wrapped else grammar

/-- The grammars with the list. -/
def others : Loaded := wrapping.grammars.insert wrapping.base.scopeName wrapping.wrapped

/-- A place other than those of the rule and of the list. -/
def Free (number : Place) : Prop :=
  number ≠ wrapping.place ∧ number ≠ wrapping.base.rules.size

/-- The places that are named elsewhere than for the injection. -/
def elsewhere : List Place :=
  wrapping.base.patterns ++ wrapping.before.map Prod.snd ++ wrapping.after.map Prod.snd ++
    (wrapping.base.repository.map Table.values).getD [] ++
    wrapping.base.rules.toList.flatMap RuleSource.namedPlaces

theorem perm_elsewhere :
    wrapping.base.namedPlaces.Perm (wrapping.place :: wrapping.elsewhere) := by
  apply List.perm_iff_count.mpr
  intro number
  simp only [GrammarSource.namedPlaces, GrammarSource.startPlaces, GrammarSource.topPlaces,
    wrapping.injections, elsewhere, Option.map_some, Option.getD_some, Table.values,
    List.map_append, List.map_cons, List.count_append, List.count_cons]
  omega

theorem free_of_elsewhere {number : Place} (member : number ∈ wrapping.elsewhere) :
    wrapping.Free number := by
  have once := wrapping.perm_elsewhere.nodup_iff.mp wrapping.orderly.once
  have named := wrapping.perm_elsewhere.mem_iff.mpr (List.mem_cons_of_mem _ member)
  refine ⟨fun same => (List.nodup_cons.mp once).1 (same ▸ member), fun same => ?_⟩
  exact Nat.lt_irrefl _ (same ▸ wrapping.orderly.inside number named)

theorem place_lt : wrapping.place < wrapping.base.rules.size :=
  wrapping.orderly.inside _ (wrapping.perm_elsewhere.mem_iff.mpr List.mem_cons_self)

/-- What a rule names is named elsewhere. -/
theorem free_of_rule (outer : Place) {number : Place}
    (member : number ∈ (wrapping.base.rule outer).namedPlaces) : wrapping.Free number := by
  by_cases bound : outer < wrapping.base.rules.size
  · have among : wrapping.base.rule outer ∈ wrapping.base.rules.toList := by
      rw [GrammarSource.rule, Array.getElem?_eq_getElem bound]
      exact Array.getElem_mem_toList bound
    exact wrapping.free_of_elsewhere
      (List.mem_append_right _ (List.mem_flatMap.mpr ⟨_, among, member⟩))
  · rw [Lockstep.rule_of_size_le (Nat.le_of_not_lt bound)] at member
    cases member

section Contexts

variable {wrapping} {context : Context} {number : Place}

theorem moved_repository (grammar : GrammarSource)
    (found : wrapping.grammars.get? grammar.scopeName = some grammar) :
    (wrapping.moved grammar).repository = grammar.repository := by
  unfold moved
  split
  next same =>
    rw [same, wrapping.held] at found
    cases found
    rfl
  next => rfl

variable (wrapping) in
/-- A context that a compilation can come by: its grammar is in the table, and its repositories
do not lead to the rule. -/
structure Fair (context : Context) : Prop where
  found : wrapping.grammars.get? context.grammar.scopeName = some context.grammar
  base : context.base = wrapping.base
  free : context.grammar.scopeName = wrapping.base.scopeName →
    ∀ table ∈ context.repositories, ∀ number ∈ table.values, wrapping.Free number

/-- In the grammar that is compiled, a context is in that grammar. -/
theorem Fair.eq_base (fair : wrapping.Fair context)
    (here : context.grammar.scopeName = wrapping.base.scopeName) :
    context.grammar = wrapping.base := by
  have found := fair.found
  rw [here, wrapping.held] at found
  exact (Option.some.inj found).symm

/-- A compilation can come by the top level of any grammar in the table. -/
theorem fair_top {scopeName : String} {grammar : GrammarSource}
    (found : wrapping.grammars.get? scopeName = some grammar) :
    wrapping.Fair (.top grammar wrapping.base) where
  found := by rwa [Context.top, wrapping.keyed _ _ found]
  base := rfl
  free := by
    intro same table member number among
    rw [Context.top, wrapping.keyed _ _ found] at same
    rw [same, wrapping.held] at found
    cases found
    have repository := Option.mem_toList.mp member
    apply wrapping.free_of_elsewhere
    apply List.mem_append_left
    apply List.mem_append_right
    rw [repository]
    exact among

theorem Fair.inside (fair : wrapping.Fair context) (number : Place) :
    wrapping.Fair (context.inside (context.grammar.rule number).repository) where
  found := fair.found
  base := fair.base
  free := by
    intro same table member place among
    rcases List.mem_append.mp member with own | outer
    · apply wrapping.free_of_rule number
      rw [← fair.eq_base same, RuleSource.namedPlaces, Option.mem_toList.mp own]
      exact List.mem_append_right _ among
    · exact fair.free same table outer place among

variable (wrapping) in
/-- What becomes of a context. -/
def movedContext (context : Context) : Context :=
  ⟨wrapping.wrapped, wrapping.moved context.grammar, context.repositories⟩

theorem movedContext_top {scopeName : String} {grammar : GrammarSource}
    (found : wrapping.grammars.get? scopeName = some grammar) :
    wrapping.movedContext (.top grammar wrapping.base) =
      .top (wrapping.moved grammar) wrapping.wrapped := by
  have own : wrapping.grammars.get? grammar.scopeName = some grammar := by
    rwa [wrapping.keyed _ _ found]
  simp only [movedContext, Context.top, moved_repository grammar own]

theorem moved_scopeName (grammar : GrammarSource) :
    (wrapping.moved grammar).scopeName = grammar.scopeName := by
  unfold moved
  split
  next same => exact same.symm
  next => rfl

theorem moved_base : wrapping.moved wrapping.base = wrapping.wrapped := if_pos rfl

/-- A grammar has the same rule at a place, unless it is that of the list. -/
theorem Fair.rule_moved (fair : wrapping.Fair context)
    (free : context.grammar.scopeName = wrapping.base.scopeName → wrapping.Free number) :
    (wrapping.moved context.grammar).rule number = context.grammar.rule number := by
  unfold moved
  split
  next same =>
    rw [fair.eq_base same]
    exact GrammarSource.rule_wrap wrapping.place (free same).2
  next => rfl

theorem Fair.patterns_moved (fair : wrapping.Fair context) :
    (wrapping.moved context.grammar).patterns = context.grammar.patterns := by
  unfold moved
  split
  next same =>
    rw [fair.eq_base same]
    rfl
  next => rfl

theorem get?_others (scopeName : String) :
    wrapping.others.get? scopeName =
      (wrapping.grammars.get? scopeName).map wrapping.moved := by
  rw [others, Table.get?_insert]
  split
  next same => rw [same, wrapping.held, Option.map_some, moved_base]
  next apart =>
    cases found : wrapping.grammars.get? scopeName with
    | none => rfl
    | some grammar =>
      have name := wrapping.keyed _ _ found
      rw [Option.map_some, moved, if_neg (by rwa [name])]

theorem Fair.moved_mem (fair : wrapping.Fair context) :
    wrapping.moved context.grammar ∈ wrapping.others.values := by
  apply Table.mem_values
  rw [get?_others, fair.found, Option.map_some]

variable (wrapping) in
/-- What is compiled in step: anything but the rule and the list. -/
structure Node (context other : Context) (place : Option Place) : Prop where
  fair : wrapping.Fair context
  other : other = wrapping.movedContext context
  free : ∀ number, place = some number →
    context.grammar.scopeName = wrapping.base.scopeName → wrapping.Free number

theorem node_top {scopeName : String} {grammar : GrammarSource}
    (found : wrapping.grammars.get? scopeName = some grammar) :
    wrapping.Node (.top grammar wrapping.base) (.top (wrapping.moved grammar) wrapping.wrapped)
      none :=
  ⟨fair_top found, (movedContext_top found).symm, by rintro _ ⟨⟩⟩

/-- A reference leads to the same. -/
theorem Fair.target_matched (fair : wrapping.Fair context) (reference : Reference) :
    Matched wrapping.Node (wrapping.grammars.target context reference)
      (wrapping.others.target (wrapping.movedContext context) reference) := by
  cases reference with
  | self =>
    have node := node_top fair.found
    rw [← fair.base] at node
    exact .somewhere node
  | base =>
    have node := node_top wrapping.held
    rw [moved_base, ← fair.base] at node
    exact .somewhere node
  | inRepository name =>
    have same : (wrapping.movedContext context).lookup name = context.lookup name := rfl
    simp only [Loaded.target, same]
    cases found : context.lookup name with
    | none => exact .nowhere
    | some place =>
      refine .somewhere ⟨fair, rfl, ?_⟩
      rintro _ ⟨⟩ here
      obtain ⟨table, member, held⟩ := List.exists_of_findSome?_eq_some found
      exact fair.free here table member place (Table.mem_values held)
  | grammar scopeName =>
    simp only [Loaded.target, get?_others]
    cases found : wrapping.grammars.get? scopeName with
    | none => exact .nowhere
    | some grammar =>
      have node := node_top found
      rw [← fair.base] at node
      exact .somewhere node
  | inGrammar scopeName name =>
    simp only [Loaded.target, get?_others]
    cases found : wrapping.grammars.get? scopeName with
    | none => exact .nowhere
    | some grammar =>
      have top := fair_top found
      have moved := movedContext_top found
      have repository := moved_repository grammar top.found
      simp only [Option.map_some, Option.bind_some, repository]
      cases names : grammar.repository.bind (·.get? name) with
      | none => exact .nowhere
      | some place =>
        obtain ⟨table, own, held⟩ := Option.bind_eq_some_iff.mp names
        rw [← fair.base] at moved top
        refine .somewhere ⟨top, moved.symm, ?_⟩
        rintro _ ⟨⟩ here
        exact top.free here table (Option.mem_toList.mpr own) place (Table.mem_values held)

/-- A rule in a list, other than the rule that is put into one, leads to the same. -/
theorem Fair.held_matched (fair : wrapping.Fair context)
    (free : context.grammar.scopeName = wrapping.base.scopeName → wrapping.Free number) :
    (wrapping.movedContext context).grammar.rule number = context.grammar.rule number ∧
    Matched wrapping.Node (wrapping.grammars.held context number)
      (wrapping.others.held (wrapping.movedContext context) number) := by
  have same : (wrapping.movedContext context).grammar.rule number = context.grammar.rule number :=
    fair.rule_moved free
  refine ⟨same, ?_⟩
  unfold Loaded.held
  rw [same]
  cases (context.grammar.rule number).reference with
  | some text => exact fair.target_matched _
  | none =>
    refine .somewhere ⟨fair, rfl, ?_⟩
    rintro _ ⟨⟩
    exact free

/-- What a rule holds leads to the same. -/
theorem Fair.tried_matched (fair : wrapping.Fair context) {outer : Place}
    (member : number ∈ (context.grammar.rule outer).triedPlaces) :
    (wrapping.movedContext context).grammar.rule number = context.grammar.rule number ∧
    Matched wrapping.Node
      (wrapping.grammars.held (context.inside (context.grammar.rule outer).repository) number)
      (wrapping.others.held
        ((wrapping.movedContext context).inside (context.grammar.rule outer).repository) number) := by
  refine (fair.inside outer).held_matched fun here => wrapping.free_of_rule outer ?_
  rw [← fair.eq_base here]
  apply List.mem_append_left
  apply List.mem_append_left
  unfold RuleSource.triedPlaces at member
  split at member
  · cases member
  · exact member

/-- The rules for the groups of a rule are the same. -/
theorem Fair.captured_matched (fair : wrapping.Fair context) {outer : Place}
    (member : number ∈ (context.grammar.rule outer).capturedPlaces) :
    (wrapping.movedContext context).grammar.rule number = context.grammar.rule number ∧
    wrapping.Node (context.inside (context.grammar.rule outer).repository)
      ((wrapping.movedContext context).inside (context.grammar.rule outer).repository)
      (some number) := by
  have free (here : context.grammar.scopeName = wrapping.base.scopeName) :
      wrapping.Free number := by
    apply wrapping.free_of_rule outer
    rw [← fair.eq_base here]
    exact List.mem_append_left _ (List.mem_append_right _ member)
  refine ⟨fair.rule_moved free, fair.inside outer, rfl, ?_⟩
  rintro _ ⟨⟩
  exact free

end Contexts

/-- What the rule is numbered under. -/
def ruleKey : Key := ⟨some wrapping.place, wrapping.base.scopeName⟩

/-- What the list is numbered under. -/
def listKey : Key := ⟨some wrapping.base.rules.size, wrapping.base.scopeName⟩

theorem ruleKey_ne_listKey : wrapping.ruleKey ≠ wrapping.listKey := by
  intro same
  simp only [ruleKey, listKey, Key.mk.injEq, Option.some.injEq, and_true] at same
  exact Nat.lt_irrefl _ (same ▸ wrapping.place_lt)

/-- Compilations without the list and with it, with some numbers for the rule and the list. -/
def lockstep (engine : Engine) (rename : RuleId → RuleId)
    (rename_inj : ∀ id other, rename id = rename other → id = other) (Shown : RuleId → Prop)
    (kept otherKept : Key → Option RuleId) : Lockstep where
  engine := engine
  left := wrapping.grammars
  right := wrapping.others
  rename := rename
  rename_inj := rename_inj
  Shown := Shown
  Asked key := key ≠ wrapping.ruleKey ∧ key ≠ wrapping.listKey
  kept := kept
  otherKept := otherKept
  Node := wrapping.Node
  asked node := by
    refine ⟨fun same => ?_, fun same => ?_⟩
    all_goals
      obtain ⟨number, here⟩ := Key.mk.inj same
      have free := node.free _ number here
    · exact free.1 rfl
    · exact free.2 rfl
  scopeName node := by
    rw [node.other]
    exact moved_scopeName _
  memberLeft node := Table.mem_values node.fair.found
  memberRight node := by
    rw [node.other]
    exact node.fair.moved_mem
  sameRule node := by
    rw [node.other]
    exact node.fair.rule_moved (node.free _ rfl)
  sameTop node := by
    rw [node.other]
    exact node.fair.patterns_moved
  top := by
    rintro context _ node number member
    rw [node.other]
    refine node.fair.held_matched fun here => wrapping.free_of_elsewhere ?_
    rw [node.fair.eq_base here] at member
    simp only [elsewhere, List.mem_append]
    exact .inl (.inl (.inl (.inl member)))
  tried := by
    rintro context _ number node _ rfl inner member
    rw [node.other]
    exact node.fair.tried_matched member
  captured := by
    rintro context _ number node _ rfl inner member
    rw [node.other]
    obtain ⟨same, captured⟩ := node.fair.captured_matched member
    exact ⟨same, fun _ => captured⟩
  standsFor := by
    rintro context _ number node _ rfl text _
    rw [node.other]
    exact (node.fair.inside number).target_matched _

end Wrapping
end Grammar
end ScopeLexer

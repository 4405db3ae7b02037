import ScopeLexer.Proofs.ThemeLevels

/-!
The order of a theme's rules. Sorting takes rules apart by their selectors, so the order in which a
theme writes rules for different selectors makes no difference to it, not even to the numbers of its
colours. Rules for the same selector keep their order and come to one rule, in which each field has the
value of the last rule that sets it.
-/
namespace ScopeLexer

open Std Style

namespace Theme

section Selectors

/-- What a rule is for: a scope, and the scopes that must enclose it. -/
def Rule.selector (rule : Rule) : String × Option (List Parent) := (rule.scope, rule.parents)

/-- The rule without its place in the theme. -/
def Rule.placeless (rule : Rule) : Rule := { rule with index := 0 }

/-- The rules for a selector. -/
def rulesOn (selector : String × Option (List Parent)) (rules : List Rule) : List Rule :=
  rules.filter (·.selector = selector)

/-- The places of rules do not go down along a list. -/
def InPlaces (rules : List Rule) : Prop :=
  rules.Pairwise fun earlier later => earlier.index ≤ later.index

/-- The order of selectors: by scope, then by parents. -/
def compareSelectors (left right : String × Option (List Parent)) : Ordering :=
  (Ord.compare left.1 right.1).then (compareParents left.2 right.2)

instance : TransCmp compareSelectors := by
  have parents : TransCmp fun left right : String × Option (List Parent) =>
      compareParents left.2 right.2 := transCmp_on _
  exact inferInstanceAs (TransCmp (compareLex (compareOn Prod.fst)
    fun left right => compareParents left.2 right.2))

/-- Selectors that compare alike are the same. -/
instance : LawfulEqCmp compareSelectors where
  eq_of_compare {left right} alike := by
    obtain ⟨scope, parents⟩ := Ordering.then_eq_eq.mp alike
    exact Prod.ext (LawfulEqOrd.eq_of_compare scope) (LawfulEqCmp.eq_of_compare parents)

@[simp] theorem compareSelectors_self (selector : String × Option (List Parent)) :
    compareSelectors selector selector = .eq := ReflCmp.compare_self

theorem compare_eq (left right : Rule) : left.compare right =
    (compareSelectors left.selector right.selector).then (Ord.compare left.index right.index) :=
  (Ordering.then_assoc ..).symm

/-- Rules stand in the order of their selectors. -/
def BySelector (rules : List Rule) : Prop :=
  rules.Pairwise fun earlier later => (compareSelectors earlier.selector later.selector).isLE = true

theorem bySelector_sortRules (rules : List Rule) : BySelector (sortRules rules) := by
  refine (sortRules_sorted rules).imp fun {earlier later} ordered => ?_
  rw [compare_eq] at ordered
  cases order : compareSelectors earlier.selector later.selector with
  | lt => rfl
  | eq => rfl
  | gt => simp [order] at ordered

/-- Sorting leaves the rules for one selector in their order. -/
theorem rulesOn_sortRules {rules : List Rule} (placed : InPlaces rules)
    (selector : String × Option (List Parent)) :
    rulesOn selector (sortRules rules) = rulesOn selector rules := by
  rw [rulesOn, filter_sortRules]
  refine List.mergeSort_of_pairwise ?_
  refine (List.Pairwise.filter _ placed).imp_of_mem fun {earlier later} first second before => ?_
  have same : earlier.selector = later.selector :=
    (of_decide_eq_true (List.mem_filter.mp first).2).trans
      (of_decide_eq_true (List.mem_filter.mp second).2).symm
  rw [compare_eq, same, compareSelectors_self, Ordering.eq_then, Nat.isLE_compare]
  exact before

theorem rulesOn_cons_self (rule : Rule) (rules : List Rule) :
    rulesOn rule.selector (rule :: rules) = rule :: rulesOn rule.selector rules := by
  simp [rulesOn]

theorem mem_rulesOn {rule : Rule} {rules : List Rule} :
    rule ∈ rulesOn selector rules ↔ rule ∈ rules ∧ rule.selector = selector := by
  simp [rulesOn]

/-- Rules in the order of their selectors are determined by the rules for each selector. -/
theorem eq_of_rulesOn {rules others : List Rule} (ordered : BySelector rules)
    (otherwise : BySelector others)
    (alike : ∀ selector, rulesOn selector rules = rulesOn selector others) : rules = others := by
  induction rules generalizing others with
  | nil =>
    cases others with
    | nil => rfl
    | cons other others =>
      have none := alike other.selector
      rw [rulesOn_cons_self] at none
      cases none
  | cons rule rules ih =>
    obtain ⟨least, sorted⟩ := List.pairwise_cons.mp ordered
    have here : rule ∈ others :=
      (mem_rulesOn.mp (alike rule.selector ▸ mem_rulesOn.mpr ⟨List.mem_cons_self, rfl⟩)).1
    cases others with
    | nil => cases here
    | cons other others =>
      obtain ⟨smallest, sortedOthers⟩ := List.pairwise_cons.mp otherwise
      have there : other ∈ rule :: rules :=
        (mem_rulesOn.mp ((alike other.selector).symm ▸
          mem_rulesOn.mpr ⟨List.mem_cons_self, rfl⟩)).1
      -- Each of the two first selectors is the least of both lists.
      have same : rule.selector = other.selector := by
        cases List.mem_cons.mp here with
        | inl same => exact same ▸ rfl
        | inr here =>
          cases List.mem_cons.mp there with
          | inl same => exact same ▸ rfl
          | inr there =>
            exact LawfulEqCmp.eq_of_compare
              (OrientedCmp.isLE_antisymm (least other there) (smallest rule here))
      have firsts := alike rule.selector
      rw [rulesOn_cons_self, same, rulesOn_cons_self] at firsts
      obtain ⟨rfl, -⟩ := List.cons.inj firsts
      refine congrArg (rule :: ·) (ih sorted sortedOthers fun selector => ?_)
      have rest := alike selector
      by_cases own : rule.selector = selector
      · subst own
        rw [rulesOn_cons_self, rulesOn_cons_self] at rest
        exact (List.cons.inj rest).2
      · simpa [rulesOn, own] using rest

end Selectors

section Reordering

theorem bySelector_placeless {rules : List Rule} (ordered : BySelector rules) :
    BySelector (rules.map Rule.placeless) :=
  List.pairwise_map.mpr ordered

theorem rulesOn_placeless (selector : String × Option (List Parent)) (rules : List Rule) :
    rulesOn selector (rules.map Rule.placeless) = (rulesOn selector rules).map Rule.placeless :=
  List.filter_map

/-- What rules do to the defaults does not depend on their places. -/
theorem defaults_placeless (rules : List Rule) (defaults : Defaults) :
    ((rules.map Rule.placeless).takeWhile (·.scope = "")).foldl Defaults.apply defaults =
      (rules.takeWhile (·.scope = "")).foldl Defaults.apply defaults := by
  rw [List.takeWhile_map, List.foldl_map]
  rfl

/-- What rules do to the colours and the tree does not depend on their places. -/
theorem insertRule_placeless (rules : List Rule) (state : ColorMap × Trie) :
    ((rules.map Rule.placeless).dropWhile (·.scope = "")).foldl insertRule state =
      (rules.dropWhile (·.scope = "")).foldl insertRule state := by
  rw [List.dropWhile_map, List.foldl_map]
  rfl

/-- Rules that sort alike but for their places make the same theme. -/
theorem ofRules_congr (name : Option String) {rules others : List Rule}
    (alike : (sortRules rules).map Rule.placeless = (sortRules others).map Rule.placeless) :
    ofRules name rules = ofRules name others := by
  simp only [ofRules]
  rw [← defaults_placeless (sortRules rules), ← defaults_placeless (sortRules others),
    ← insertRule_placeless (sortRules rules), ← insertRule_placeless (sortRules others), alike]

/-- Rules whose order changes only between selectors make the same theme. -/
theorem ofRules_reordered (name : Option String) {rules others : List Rule}
    (placed : InPlaces rules) (otherwise : InPlaces others)
    (alike : ∀ selector, (rulesOn selector rules).map Rule.placeless =
      (rulesOn selector others).map Rule.placeless) :
    ofRules name rules = ofRules name others := by
  refine ofRules_congr name (eq_of_rulesOn (bySelector_placeless (bySelector_sortRules rules))
    (bySelector_placeless (bySelector_sortRules others)) fun selector => ?_)
  rw [rulesOn_placeless, rulesOn_placeless, rulesOn_sortRules placed,
    rulesOn_sortRules otherwise, alike]

end Reordering

section Overriding

/-- The rule with what a later one sets in its place. -/
def Rule.overriddenBy (earlier later : Rule) : Rule where
  scope := earlier.scope
  parents := earlier.parents
  index := earlier.index
  fontStyle := later.fontStyle.or earlier.fontStyle
  foreground := later.foreground.or earlier.foreground
  background := later.background.or earlier.background

@[simp] theorem selector_overriddenBy (earlier later : Rule) :
    (earlier.overriddenBy later).selector = earlier.selector := rfl

@[simp] theorem selector_foldl_overriddenBy (first : Rule) (later : List Rule) :
    (later.foldl Rule.overriddenBy first).selector = first.selector := by
  induction later generalizing first with
  | nil => rfl
  | cons rule later ih => rw [List.foldl_cons, ih, selector_overriddenBy]

/-- A step that rules take one after the other does the same for a rule and a later one as for the one
that they come to. -/
def Absorbs (step : β → Rule → β) : Prop :=
  ∀ state earlier later, later.selector = earlier.selector →
    step (step state earlier) later = step state (earlier.overriddenBy later)

theorem Absorbs.foldl {step : β → Rule → β} (absorbs : Absorbs step) (state : β) {first : Rule}
    {later : List Rule} (same : ∀ rule ∈ later, rule.selector = first.selector) :
    (first :: later).foldl step state = step state (later.foldl Rule.overriddenBy first) := by
  induction later generalizing first with
  | nil => rfl
  | cons rule later ih =>
    obtain ⟨own, rest⟩ := List.forall_mem_cons.mp same
    have merged : (first.overriddenBy rule :: later).foldl step state =
        step state (later.foldl Rule.overriddenBy (first.overriddenBy rule)) := ih rest
    rw [List.foldl_cons, List.foldl_cons, absorbs state first rule own]
    exact merged

theorem absorbs_defaults : Absorbs Defaults.apply := by
  intro defaults earlier later _
  simp only [Defaults.apply, Rule.overriddenBy, Option.getD_or]

theorem set_set (held : WrittenStyle) (depth : Nat) (earlier later : Rule) :
    (held.set depth earlier).set depth later = held.set depth (earlier.overriddenBy later) := by
  simp only [WrittenStyle.set, Rule.overriddenBy, Option.or_assoc]

/-- Applying two rules for one selector to a level, one after the other, is applying what they come
to. -/
theorem absorbs_level (depth : Nat) : Absorbs (Level.apply depth) := by
  intro level earlier later same
  have parents : later.parents = earlier.parents := congrArg Prod.snd same
  have kept : (earlier.overriddenBy later).parents = earlier.parents := rfl
  by_cases everywhere : earlier.parents = none
  · simp only [Level.apply, parents, kept, everywhere, if_true, set_set]
  · by_cases held : ∃ style ∈ level.qualified, style.parents = earlier.parents
    · have set : ∃ style ∈ level.qualified.map fun style =>
          if style.parents = earlier.parents then style.set depth earlier else style,
          style.parents = earlier.parents := by
        obtain ⟨style, member, own⟩ := held
        exact ⟨_, List.mem_map_of_mem member, by rw [if_pos own, parents_set, own]⟩
      simp only [Level.apply, parents, kept, everywhere, if_false, held, set, if_true, List.map_map]
      congr 1
      refine List.map_congr_left fun style _ => ?_
      by_cases own : style.parents = earlier.parents <;> simp [own, set_set]
    · have absent : ∀ style ∈ level.qualified, ¬ style.parents = earlier.parents := by
        simpa using held
      have idle : level.qualified.map (fun style =>
          if style.parents = earlier.parents then style.set depth later else style) =
            level.qualified :=
        (List.map_congr_left fun style member => if_neg (absent style member)).trans
          level.qualified.map_id
      simp [Level.apply, parents, kept, everywhere, held, idle, set_set]

/-- Rules in the order of their selectors, taken apart around one of them. -/
theorem eq_around {rules : List Rule} (ordered : BySelector rules)
    (selector : String × Option (List Parent)) :
    rules = rules.filter (fun rule => compareSelectors rule.selector selector = .lt) ++
      (rulesOn selector rules ++
        rules.filter fun rule => compareSelectors rule.selector selector = .gt) := by
  induction rules with
  | nil => rfl
  | cons rule rules ih =>
    obtain ⟨least, ordered⟩ := List.pairwise_cons.mp ordered
    cases order : compareSelectors rule.selector selector with
    | lt =>
      have other : rule.selector ≠ selector := fun same => by
        simp [same] at order
      simpa [rulesOn, order, other] using ih ordered
    | eq =>
      have own : rule.selector = selector := LawfulEqCmp.eq_of_compare order
      have low : rules.filter (fun later => compareSelectors later.selector selector = .lt) = [] :=
        List.filter_eq_nil_iff.mpr fun later member less => by
          have before := TransCmp.lt_of_isLE_of_lt (least later member) (of_decide_eq_true less)
          rw [order] at before
          cases before
      have rest := ih ordered
      rw [low, List.nil_append] at rest
      rw [← own] at order rest low ⊢
      rw [rulesOn_cons_self]
      simpa [order, low] using rest
    | gt =>
      have high : ∀ later ∈ rules, compareSelectors later.selector selector = .gt :=
        fun later member => OrientedCmp.gt_iff_lt.mpr
          (TransCmp.lt_of_lt_of_isLE (OrientedCmp.gt_iff_lt.mp order) (least later member))
      have all : ∀ later ∈ rule :: rules, compareSelectors later.selector selector = .gt :=
        List.forall_mem_cons.mpr ⟨order, high⟩
      rw [List.filter_eq_nil_iff.mpr fun later member => by simp [all later member],
        rulesOn, List.filter_eq_nil_iff.mpr fun later member => ?_,
        List.filter_eq_self.mpr fun later member => by simp [all later member]]
      · rfl
      · rw [decide_eq_true_iff]
        rintro rfl
        simpa using all later member

/-- Sorting rules puts those for one selector between the same rules as one for it in their place. -/
theorem sortRules_around {rules : List Rule} (placed : InPlaces rules) (first : Rule) :
    ∃ before after, sortRules rules = before ++ (rulesOn first.selector rules ++ after) ∧
      sortRules (first :: rules.filter (·.selector ≠ first.selector)) =
        before ++ (first :: after) := by
  have without (order : Ordering) (apart : order ≠ .eq) :
      (first :: rules.filter (·.selector ≠ first.selector)).filter
          (fun rule => compareSelectors rule.selector first.selector = order) =
        rules.filter fun rule => compareSelectors rule.selector first.selector = order := by
    rw [List.filter_cons_of_neg (by simpa using apart.symm), List.filter_filter]
    refine List.filter_congr fun rule _ => ?_
    by_cases own : rule.selector = first.selector
    · simp [own, apart.symm]
    · simp [own]
  have alone : rulesOn first.selector (sortRules (first :: rules.filter
      (·.selector ≠ first.selector))) = [first] := by
    rw [rulesOn, filter_sortRules, List.filter_cons_of_pos (by simp), List.filter_filter,
      List.filter_eq_nil_iff.mpr (by simp)]
    exact List.mergeSort_singleton _
  refine ⟨_, _, (eq_around (bySelector_sortRules rules) first.selector).trans
    (by rw [rulesOn_sortRules placed]), ?_⟩
  rw [eq_around (bySelector_sortRules (first :: _)) first.selector, alone, filter_sortRules,
    filter_sortRules, filter_sortRules, filter_sortRules, without .lt (by decide),
    without .gt (by decide)]
  rfl

/-- A run of an absorbing step over sorted rules does not tell the rules for a selector from the rule
that they come to. -/
theorem Absorbs.foldl_sortRules {step : β → Rule → β} (absorbs : Absorbs step) {keep : Rule → Bool}
    (together : ∀ rule other : Rule, rule.selector = other.selector → keep rule = keep other)
    {rules : List Rule} (placed : InPlaces rules)
    (chosen : rulesOn first.selector rules = first :: later) (state : β) :
    ((sortRules (later.foldl Rule.overriddenBy first ::
        rules.filter (·.selector ≠ first.selector))).filter keep).foldl step state =
      ((sortRules rules).filter keep).foldl step state := by
  obtain ⟨before, after, whole, merged⟩ :=
    sortRules_around placed (later.foldl Rule.overriddenBy first)
  rw [selector_foldl_overriddenBy] at whole merged
  have same : ∀ rule ∈ later, rule.selector = first.selector := fun rule member =>
    (mem_rulesOn.mp (chosen ▸ List.mem_cons_of_mem first member)).2
  have kept : keep (later.foldl Rule.overriddenBy first) = keep first :=
    together _ _ (selector_foldl_overriddenBy first later)
  rw [whole, merged, chosen, List.filter_append, List.filter_append, List.filter_append,
    List.foldl_append, List.foldl_append, List.foldl_append]
  cases taken : keep first with
  | true =>
    have all : (first :: later).filter keep = first :: later :=
      List.filter_eq_self.mpr (List.forall_mem_cons.mpr
        ⟨taken, fun rule member => (together _ _ (same rule member)).trans taken⟩)
    rw [all, absorbs.foldl _ same, List.filter_cons_of_pos (kept.trans taken), List.foldl_cons]
  | false =>
    have none : (first :: later).filter keep = [] :=
      List.filter_eq_nil_iff.mpr (List.forall_mem_cons.mpr
        ⟨by simp [taken], fun rule member => by simp [together _ _ (same rule member), taken]⟩)
    rw [none, List.filter_cons_of_neg (by simp [kept, taken]), List.foldl_nil]

end Overriding

section Shown

/-- A style with its colours as texts. -/
structure ShownStyle where
  fontStyle : Option FontStyle
  foreground : Option String
  background : Option String
  deriving Repr, DecidableEq

/-- A style with the colours that its numbers stand for in a theme. -/
def shown (theme : Theme) (style : StyleAttributes) : ShownStyle where
  fontStyle := style.fontStyle
  foreground := theme.colorMap.color? style.foreground
  background := theme.colorMap.color? style.background

/-- Two themes show everything alike, whatever numbers they give to their colours. -/
structure ShowsAs (theme other : Theme) : Prop where
  defaults : theme.shown theme.defaults = other.shown other.defaults
  scopes : ∀ scope ancestors, (theme.matchScope scope ancestors).map theme.shown =
    (other.matchScope scope ancestors).map other.shown

/-- A number stands for its colour from when it is given on. -/
theorem color?_settled {map later : ColorMap} (started : map.Started) {color : Option String}
    (grows : (map.number color).2.Grows later) :
    later.color? (map.number color).1 = color.map Text.toUpper := by
  rw [← ColorMap.number_settled started grows]
  exact ColorMap.color?_number grows.1 ((ColorMap.number_has started color).grow grows)

/-- The defaults that rules for no scope make. -/
def defaultsOf (rules : List Rule) : Defaults :=
  ((sortRules rules).filter (·.scope = "")).foldl Defaults.apply {}

theorem takeWhile_sortRules (rules : List Rule) :
    (sortRules rules).takeWhile (·.scope = "") = (sortRules rules).filter (·.scope = "") := by
  have cut := congrArg (List.filter (·.scope = ""))
    (List.takeWhile_append_dropWhile (p := (·.scope = "")) (l := sortRules rules))
  rw [List.filter_append, dropWhile_eq_filter (scopes_sorted rules), List.filter_filter,
    List.filter_eq_self.mpr (List.all_eq_true.mp List.all_takeWhile),
    List.filter_eq_nil_iff.mpr (by simp), List.append_nil] at cut
  exact cut

/-- The defaults of a theme are shown as its rules without a scope set them. -/
theorem shown_defaults (name : Option String) (rules : List Rule) :
    (ofRules name rules).shown (ofRules name rules).defaults =
      ⟨some (defaultsOf rules).fontStyle, some (Text.toUpper (defaultsOf rules).foreground),
        some (Text.toUpper (defaultsOf rules).background)⟩ := by
  have started : ({} : ColorMap).Started := by simp [ColorMap.Started]
  have grows := (putIn_ofRules name rules).grows
  rw [startMap, takeWhile_sortRules, ← defaultsOf] at grows
  have middle := ColorMap.number_started started (some (defaultsOf rules).foreground)
  have foreground := color?_settled started
    ((ColorMap.number_grows middle (some (defaultsOf rules).background)).trans grows)
  have background := color?_settled middle grows
  have made : (ofRules name rules).defaults =
      ⟨some (defaultsOf rules).fontStyle,
        (({} : ColorMap).number (some (defaultsOf rules).foreground)).1,
        ((({} : ColorMap).number (some (defaultsOf rules).foreground)).2.number
          (some (defaultsOf rules).background)).1⟩ := by
    simp only [ofRules, takeWhile_sortRules, defaultsOf]
  rw [shown, made, foreground, background]
  rfl

/-- What a theme shows for a scope is what it finds, with the colours as texts. -/
theorem shown_matchScope (theme : Theme) (scope : String) (ancestors : List String) :
    (theme.matchScope scope ancestors).map theme.shown =
      (((theme.trie.find (atomsOf scope)).map (·.resolved theme.colorMap)).find? fun style =>
        match style.parents with
        | none => true
        | some parents => matchesParents parents ancestors).map fun style =>
          ⟨style.fontStyle, style.foreground, style.background⟩ := by
  rw [matchScope, List.find?_map, Option.map_map, Option.map_map]
  rfl

/-- Themes show alike if their rules make the same defaults and the same levels. -/
theorem showsAs_of_levels (name : Option String) {rules others : List Rule}
    (defaults : defaultsOf rules = defaultsOf others)
    (levels : ∀ atoms depth, levelAt rules atoms depth = levelAt others atoms depth) :
    (ofRules name rules).ShowsAs (ofRules name others) where
  defaults := by rw [shown_defaults, shown_defaults, defaults]
  scopes scope ancestors := by
    rw [shown_matchScope, shown_matchScope, find_resolved, find_resolved, stylesFor, stylesFor,
      levels]

/-- Rules for one selector show as the rule that they come to. -/
theorem showsAs_overridden (name : Option String) {rules : List Rule} (placed : InPlaces rules)
    (chosen : rulesOn first.selector rules = first :: later) :
    (ofRules name rules).ShowsAs (ofRules name
      (later.foldl Rule.overriddenBy first :: rules.filter (·.selector ≠ first.selector))) := by
  refine showsAs_of_levels name ?_ fun atoms depth => ?_
  · have byScope : ∀ rule other : Rule, rule.selector = other.selector →
        decide (rule.scope = "") = decide (other.scope = "") := fun rule other same => by
      rw [show rule.scope = other.scope from congrArg Prod.fst same]
    exact (absorbs_defaults.foldl_sortRules byScope placed chosen {}).symm
  · induction depth with
    | zero => rfl
    | succ depth ih =>
      have byAtoms : ∀ rule other : Rule, rule.selector = other.selector →
          decide (atomsOf rule.scope = atoms.take (depth + 1)) =
            decide (atomsOf other.scope = atoms.take (depth + 1)) := fun rule other same => by
        rw [show rule.scope = other.scope from congrArg Prod.fst same]
      rw [levelAt, levelAt, ih, rulesFor, rulesFor, ← filter_sortRules, ← filter_sortRules]
      exact ((absorbs_level (depth + 1)).foldl_sortRules byAtoms placed chosen _).symm

end Shown

/-- The order of rules matters only within a selector. Rules that keep their order for every selector
make the same theme: the same defaults, the same numbers of colours and the same styles of all scopes.
And the rules for one selector show as one rule in which each sets anew what it sets, and leaves what
it does not set as the ones before it made it. -/
theorem order_within_selectors (name : Option String) {rules : List Rule}
    (placed : InPlaces rules) :
    (∀ others, InPlaces others →
      (∀ selector, (rulesOn selector rules).map Rule.placeless =
        (rulesOn selector others).map Rule.placeless) →
      ofRules name rules = ofRules name others) ∧
    ∀ first later, rulesOn first.selector rules = first :: later →
      (ofRules name rules).ShowsAs (ofRules name
        (later.foldl Rule.overriddenBy first ::
          rules.filter (·.selector ≠ first.selector))) :=
  ⟨fun _ otherwise alike => ofRules_reordered name placed otherwise alike,
    fun _ _ chosen => showsAs_overridden name placed chosen⟩

namespace Comments

/-- Comments in italics and red, which become green. -/
def italic (index : Nat) : Rule := ⟨"comment", none, index, some .italic, some "#ff0000", none⟩

def green (index : Nat) : Rule := ⟨"comment", none, index, none, some "#00ff00", none⟩

def string (index : Nat) : Rule := ⟨"string", none, index, none, some "#0000ff", none⟩

/-- The rule for strings may stand between the rules for comments or after them. -/
theorem moved (selector : String × Option (List Parent)) :
    (rulesOn selector [italic 0, string 1, green 2]).map Rule.placeless =
      (rulesOn selector [italic 3, green 3, string 5]).map Rule.placeless := by
  by_cases comments : ("comment", none) = selector
  · subst comments
    rfl
  · by_cases strings : ("string", none) = selector <;>
      simp [rulesOn, Rule.selector, italic, green, string, comments, strings, Rule.placeless]

theorem placed : InPlaces [italic 0, string 1, green 2] := by simp [InPlaces, italic, green, string]

theorem otherwise : InPlaces [italic 3, green 3, string 5] := by simp [InPlaces, italic, green, string]

/-- What a theme shows of a comment. -/
def found (theme : Theme) : Option ShownStyle := (theme.matchScope "comment" []).map theme.shown

theorem found_comment :
    found (ofRules none [italic 0, string 1, green 2]) = some ⟨some .italic, some "#00FF00", none⟩ := by
  have sorted : sortRules [italic 3, green 3, string 5] = [italic 3, green 3, string 5] :=
    List.mergeSort_of_pairwise (by decide +kernel)
  rw [ofRules_reordered none placed otherwise moved, ofRules, sorted]
  decide +kernel

end Comments

open Comments in
/-- A rule for strings moves, and a comment is shown in italics and green. -/
theorem order_within_selectors_comments :
    InPlaces [italic 0, string 1, green 2] ∧ InPlaces [italic 3, green 3, string 5] ∧
      ofRules none [italic 0, string 1, green 2] = ofRules none [italic 3, green 3, string 5] ∧
      (ofRules none [italic 0, string 1, green 2]).ShowsAs (ofRules none
        [⟨"comment", none, 0, some .italic, some "#00ff00", none⟩, string 1]) ∧
      found (ofRules none [italic 0, string 1, green 2]) =
        some ⟨some .italic, some "#00FF00", none⟩ := by
  have within := order_within_selectors none placed
  exact ⟨placed, otherwise, within.1 _ otherwise moved, within.2 (italic 0) [green 2] rfl, found_comment⟩

end Theme
end ScopeLexer

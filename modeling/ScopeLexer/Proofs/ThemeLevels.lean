import Mathlib.Data.List.Basic
import ScopeLexer.Proofs.ThemeInsertion

/-!
What a theme finds for a scope, level by level. The scope with `k` atoms starts from what the scope
with `k - 1` atoms has, and the rules for exactly its atoms are applied to that in their order. Nothing
else has a part in it: neither the rules for other scopes nor the order in which nodes were made.
Colours are given numbers in the order in which rules ask for them, so the levels are stated with the
colours as rules write them, and with the numbers of the finished theme.
-/
namespace ScopeLexer

open Std Style

namespace Style.ColorMap

section Numbers

variable {map later : ColorMap}

/-- The colours that have a number. -/
def known (map : ColorMap) : List String := map.colors.toList.drop 1

/-- Number 0 is taken. -/
def Started (map : ColorMap) : Prop := 0 < map.colors.size

/-- A colour, if it is one, has a number. -/
def Has (map : ColorMap) (color : Option String) : Prop :=
  ∀ text, color = some text → Text.toUpper text ∈ map.known

/-- Colours have only been added. -/
def Grows (map later : ColorMap) : Prop := later.Started ∧ map.known <+: later.known

theorem Grows.refl (started : map.Started) : map.Grows map := ⟨started, List.prefix_rfl⟩

theorem Grows.trans {latest : ColorMap} (first : map.Grows later) (second : later.Grows latest) :
    map.Grows latest :=
  ⟨second.1, first.2.trans second.2⟩

theorem Has.grow (has : map.Has color) (grows : map.Grows later) : later.Has color :=
  fun text written => grows.2.subset (has text written)

theorem size_eq (started : map.Started) : map.colors.size = map.known.length + 1 := by
  have := started
  simp only [Started, known, List.length_drop, Array.length_toList] at *
  omega

theorem number_eq (map : ColorMap) (text : String) : map.number (some text) =
    match map.known.idxOf? (Text.toUpper text) with
    | some index => (index + 1, map)
    | none => (map.colors.size, ⟨map.colors.push (Text.toUpper text)⟩) := rfl

/-- The number of a colour is its place among those known, or the next one. -/
theorem number_some (started : map.Started) (text : String) :
    (map.number (some text)).1 = map.known.idxOf (Text.toUpper text) + 1 := by
  rw [number_eq]
  cases found : map.known.idxOf? (Text.toUpper text) with
  | none =>
    dsimp only
    rw [size_eq started, List.idxOf_eq_length (List.idxOf?_eq_none_iff.mp found)]
  | some index =>
    dsimp only
    rw [← (List.findIdx?_eq_some_iff_findIdx_eq.mp found).2]
    rfl

/-- A colour is given a number once, in capitals. -/
theorem known_number (started : map.Started) (text : String) :
    (map.number (some text)).2.known =
      if Text.toUpper text ∈ map.known then map.known else map.known ++ [Text.toUpper text] := by
  rw [number_eq]
  cases found : map.known.idxOf? (Text.toUpper text) with
  | none =>
    have full : 1 - map.colors.size = 0 := by
      have := size_eq started
      omega
    rw [if_neg (List.idxOf?_eq_none_iff.mp found), known, Array.toList_push, List.drop_append,
      Array.length_toList, full, List.drop_zero, known]
  | some index =>
    obtain ⟨bound, here, -⟩ := List.idxOf?_eq_some_iff.mp found
    rw [if_pos (here ▸ List.getElem_mem bound)]

theorem number_started (started : map.Started) (color : Option String) :
    (map.number color).2.Started := by
  cases color with
  | none => exact started
  | some text =>
    simp only [number]
    split
    · exact started
    · simp [Started]

theorem number_grows (started : map.Started) (color : Option String) :
    map.Grows (map.number color).2 := by
  refine ⟨number_started started color, ?_⟩
  cases color with
  | none => exact List.prefix_rfl
  | some text =>
    rw [known_number started]
    split
    · exact List.prefix_rfl
    · exact List.prefix_append ..

theorem number_has (started : map.Started) (color : Option String) :
    (map.number color).2.Has color := by
  rintro text rfl
  rw [known_number started]
  split
  · assumption
  · simp

/-- A colour has the same number when it is given it and ever after. -/
theorem number_settled (started : map.Started) (grows : (map.number color).2.Grows later) :
    (later.number color).1 = (map.number color).1 := by
  cases color with
  | none => rfl
  | some text =>
    obtain ⟨added, whole⟩ := grows.2
    have has := number_has started (some text) text rfl
    rw [number_some started, number_some grows.1, ← whole, List.idxOf_append_of_mem has,
      known_number started]
    split
    · rfl
    · next unknown => simp [List.idxOf_append_of_notMem unknown, List.idxOf_eq_length unknown]

theorem color?_number (started : map.Started) (has : map.Has color) :
    map.color? (map.number color).1 = color.map Text.toUpper := by
  cases color with
  | none => rfl
  | some text =>
    have here := List.getElem?_idxOf (has text rfl)
    rw [number_some started]
    rw [known, List.getElem?_drop, Nat.add_comm, ← known, Array.getElem?_toList] at here
    simpa only [color?, Nat.succ_ne_zero, if_false, Option.map_some] using here

end Numbers
end Style.ColorMap

namespace Theme

/-- A style as rules write it: colours are texts, and what is not set is none. -/
structure WrittenStyle where
  /-- The number of atoms of the scope that set the style. -/
  depth : Nat
  parents : Option (List Parent)
  fontStyle : Option FontStyle
  foreground : Option String
  background : Option String
  deriving Repr, DecidableEq

/-- The style with what a rule sets in its place. -/
def WrittenStyle.set (held : WrittenStyle) (depth : Nat) (rule : Rule) : WrittenStyle where
  depth := depth
  parents := held.parents
  fontStyle := rule.fontStyle.or held.fontStyle
  foreground := rule.foreground.or held.foreground
  background := rule.background.or held.background

/-- The style with the numbers that its colours have. -/
def WrittenStyle.numbered (map : ColorMap) (style : WrittenStyle) : StyleRule where
  depth := style.depth
  parents := style.parents
  fontStyle := style.fontStyle
  foreground := (map.number style.foreground).1
  background := (map.number style.background).1

/-- What holds for the scopes with some number of atoms: a style for everywhere, and those for inside
certain parents. -/
structure Level where
  main : WrittenStyle
  qualified : List WrittenStyle
  deriving Repr, DecidableEq

namespace Level

def start : Level := ⟨⟨0, none, none, none, none⟩, []⟩

def styles (level : Level) : List WrittenStyle := level.main :: level.qualified

/-- Applies a rule for a scope with `depth` atoms. Without parents it sets the style for everywhere.
With parents it sets the style for these parents, which is the one for everywhere if there is none. -/
def apply (depth : Nat) (level : Level) (rule : Rule) : Level :=
  if rule.parents = none then
    { level with main := level.main.set depth rule }
  else if ∃ style ∈ level.qualified, style.parents = rule.parents then
    { level with qualified := level.qualified.map fun style =>
        if style.parents = rule.parents then style.set depth rule else style }
  else
    let inherited : WrittenStyle := { level.main with parents := rule.parents }
    { level with qualified := level.qualified ++ [inherited.set depth rule] }

end Level

/-- The rules for exactly some atoms, in the order in which they are applied. -/
def rulesFor (rules : List Rule) (atoms : List String) : List Rule :=
  sortRules (rules.filter fun rule => atomsOf rule.scope = atoms)

/-- What holds for the first `depth` of some atoms. -/
def levelAt (rules : List Rule) (atoms : List String) : Nat → Level
  | 0 => .start
  | depth + 1 => (rulesFor rules (atoms.take (depth + 1))).foldl (Level.apply (depth + 1))
      (levelAt rules atoms depth)

section Colors

/-- The style of a rule, with the numbers that its colours have. -/
def styleOf (map : ColorMap) (rule : Rule) : StyleRule where
  depth := (atomsOf rule.scope).length
  parents := rule.parents
  fontStyle := rule.fontStyle
  foreground := (map.number rule.foreground).1
  background := (map.number rule.background).1

/-- The colours of a rule have numbers. -/
def Rule.Colored (map : ColorMap) (rule : Rule) : Prop :=
  map.Has rule.foreground ∧ map.Has rule.background

/-- What putting rules in comes to: their colours have numbers afterwards, and each has been put in
with these. -/
structure PutIn (rules : List Rule) (map after : ColorMap) (trie result : Trie) : Prop where
  grows : map.Grows after
  colored : ∀ rule ∈ rules, rule.Colored after
  inserted : result = trie.insertAll (styleOf after) rules

theorem putIn_insertRule {map : ColorMap} (trie : Trie) (started : map.Started) (rule : Rule) :
    map.Grows (insertRule (map, trie) rule).1 ∧ rule.Colored (insertRule (map, trie) rule).1 ∧
      ∀ later, (insertRule (map, trie) rule).1.Grows later →
        (insertRule (map, trie) rule).2 = trie.insert (styleOf later rule) (atomsOf rule.scope) := by
  have middle := ColorMap.number_grows started rule.foreground
  have last := ColorMap.number_grows middle.1 rule.background
  refine ⟨middle.trans last, ⟨?_, ?_⟩, ?_⟩
  · exact (ColorMap.number_has started _).grow last
  · exact ColorMap.number_has middle.1 _
  · intro later grows
    rw [insertRule, styleOf, ColorMap.number_settled started (last.trans grows),
      ColorMap.number_settled middle.1 grows]

/-- Inserting rules one by one gives each its colours and puts it into the tree. -/
theorem putIn_foldl (rules : List Rule) {map : ColorMap} (trie : Trie) (started : map.Started) :
    PutIn rules map (rules.foldl insertRule (map, trie)).1 trie
      (rules.foldl insertRule (map, trie)).2 := by
  induction rules generalizing map trie with
  | nil => exact ⟨.refl started, by simp, rfl⟩
  | cons rule rules ih =>
    obtain ⟨grows, colored, inserted⟩ := putIn_insertRule trie started rule
    have rest := ih (insertRule (map, trie) rule).2 grows.1
    refine ⟨grows.trans rest.grows, ?_, ?_⟩
    · intro other member
      cases List.mem_cons.mp member with
      | inl same =>
        subst same
        exact ⟨colored.1.grow rest.grows, colored.2.grow rest.grows⟩
      | inr member => exact rest.colored other member
    · exact rest.inserted.trans
        (congrArg (Trie.insertAll (styleOf _) rules) (inserted _ rest.grows))

/-- The rules of a theme that are for a scope, in the order in which they are applied. -/
def scopedRules (rules : List Rule) : List Rule := (sortRules rules).dropWhile (·.scope = "")

/-- The colour map of a theme before its rules are put in. -/
def startMap (rules : List Rule) : ColorMap :=
  let defaults := ((sortRules rules).takeWhile (·.scope = "")).foldl Defaults.apply {}
  ((({} : ColorMap).number (some defaults.foreground)).2.number (some defaults.background)).2

theorem colorMap_ofRules (name : Option String) (rules : List Rule) : (ofRules name rules).colorMap =
    ((scopedRules rules).foldl insertRule (startMap rules, .empty)).1 := by
  simp only [ofRules, startMap, scopedRules]

theorem trie_ofRules (name : Option String) (rules : List Rule) : (ofRules name rules).trie =
    ((scopedRules rules).foldl insertRule (startMap rules, .empty)).2 := by
  simp only [ofRules, startMap, scopedRules]

theorem startMap_started (rules : List Rule) : (startMap rules).Started := by
  have started : ({} : ColorMap).Started := by simp [ColorMap.Started]
  exact ColorMap.number_started (ColorMap.number_started started _) _

/-- The rules of a theme are put in after its defaults have numbers. -/
theorem putIn_ofRules (name : Option String) (rules : List Rule) : PutIn (scopedRules rules)
    (startMap rules) (ofRules name rules).colorMap .empty (ofRules name rules).trie := by
  rw [colorMap_ofRules, trie_ofRules]
  exact putIn_foldl (scopedRules rules) .empty (startMap_started rules)

theorem colorMap_started (name : Option String) (rules : List Rule) :
    (ofRules name rules).colorMap.Started :=
  (putIn_ofRules name rules).grows.1

/-- In sorted rules those without a scope come first, so dropping them while they last drops them
all. -/
theorem dropWhile_eq_filter {rules : List Rule}
    (sorted : rules.Pairwise fun left right => ¬ right.scope < left.scope) :
    rules.dropWhile (·.scope = "") = rules.filter (·.scope ≠ "") := by
  induction rules with
  | nil => rfl
  | cons rule rules ih =>
    obtain ⟨first, rest⟩ := List.pairwise_cons.mp sorted
    by_cases empty : rule.scope = ""
    · simpa [empty] using ih rest
    · have all : ∀ other ∈ rule :: rules, decide (other.scope ≠ "") = true := by
        intro other member
        rw [decide_eq_true_iff]
        cases List.mem_cons.mp member with
        | inl same => exact same ▸ empty
        | inr member =>
          intro none
          have least : "" < rule.scope := by
            show [] < rule.scope.toList
            cases text : rule.scope.toList with
            | nil => exact absurd (String.toList_eq_nil_iff.mp text) empty
            | cons c chars => exact List.nil_lt_cons c chars
          exact first other member (none ▸ least)
      rw [List.filter_eq_self.mpr all]
      simp [empty]

/-- The rules for no scope are those that stand first. -/
theorem scopedRules_eq (rules : List Rule) :
    scopedRules rules = (sortRules rules).filter (·.scope ≠ "") :=
  dropWhile_eq_filter (scopes_sorted rules)

end Colors

section Steps

variable {map : ColorMap}

/-- A level without its rules' texts: what a node holds. -/
def Level.numbered (map : ColorMap) (level : Level) : Trie :=
  .node (level.main.numbered map) (level.qualified.map (·.numbered map)) []

/-- What every level keeps to. -/
structure Level.Sound (map : ColorMap) (depth : Nat) (level : Level) : Prop where
  everywhere : level.main.parents = none
  once : (level.qualified.map (·.parents)).Nodup
  depths : ∀ style ∈ level.styles, style.depth ≤ depth
  colored : ∀ style ∈ level.styles, map.Has style.foreground ∧ map.Has style.background

theorem number_or (started : map.Started) (color held : Option String) :
    (map.number (color.or held)).1 =
      if (map.number color).1 ≠ 0 then (map.number color).1 else (map.number held).1 := by
  cases color with
  | none => rfl
  | some text => simp [ColorMap.number_some started]

@[simp] theorem parents_numbered (style : WrittenStyle) :
    (style.numbered map).parents = style.parents := rfl

@[simp] theorem parents_set (style : WrittenStyle) (depth : Nat) (rule : Rule) :
    (style.set depth rule).parents = style.parents := rfl

@[simp] theorem parents_styleOf (rule : Rule) : (styleOf map rule).parents = rule.parents := rfl

theorem numbered_set (started : map.Started) {held : WrittenStyle} {rule : Rule}
    (deep : held.depth ≤ (atomsOf rule.scope).length) :
    (held.set (atomsOf rule.scope).length rule).numbered map =
      (held.numbered map).overwrite (styleOf map rule) := by
  simp only [WrittenStyle.numbered, WrittenStyle.set, StyleRule.overwrite, styleOf,
    number_or started, Nat.max_eq_right deep]
  cases rule.fontStyle <;> rfl

theorem numbered_inherited (started : map.Started) (main : WrittenStyle) (rule : Rule) :
    (({ main with parents := rule.parents } : WrittenStyle).set (atomsOf rule.scope).length
      rule).numbered map = (styleOf map rule).inherit (main.numbered map) := by
  simp only [WrittenStyle.numbered, WrittenStyle.set, StyleRule.inherit, styleOf,
    number_or started, ite_not]
  cases rule.fontStyle <;> rfl

theorem insertQualified_new {main new : StyleRule} {held : List StyleRule}
    (absent : ∀ style ∈ held, style.parents ≠ new.parents) :
    Trie.insertQualified main new held = held ++ [new.inherit main] := by
  induction held with
  | nil => rfl
  | cons style held ih =>
    obtain ⟨different, rest⟩ := List.forall_mem_cons.mp absent
    rw [Trie.insertQualified, if_neg, ih rest, List.cons_append]
    simpa using different

/-- A style whose parents are there already overwrites the one that has them. -/
theorem insertQualified_held {main new : StyleRule} {held : List StyleRule}
    (once : (held.map (·.parents)).Nodup) (present : ∃ style ∈ held, style.parents = new.parents) :
    Trie.insertQualified main new held = held.map fun style =>
      if style.parents = new.parents then style.overwrite new else style := by
  induction held with
  | nil => simp at present
  | cons style held ih =>
    obtain ⟨first, rest⟩ := List.nodup_cons.mp once
    by_cases same : style.parents = new.parents
    · have others : ∀ other ∈ held, ¬ other.parents = new.parents := by
        intro other member alike
        exact first (List.mem_map.mpr ⟨other, member, alike.trans same.symm⟩)
      have idle : held.map (fun other =>
          if other.parents = new.parents then other.overwrite new else other) = held :=
        (List.map_congr_left fun other member => if_neg (others other member)).trans held.map_id
      rw [Trie.insertQualified, if_pos (by simpa using same), List.map_cons, if_pos same, idle]
    · have below : ∃ style ∈ held, style.parents = new.parents := by
        simpa [same] using present
      rw [Trie.insertQualified, if_neg (by simpa using same), List.map_cons, if_neg same,
        ih rest below]

/-- Applying a rule to a level is putting its style into a node. -/
theorem numbered_apply (started : map.Started) {level : Level} {rule : Rule}
    (sound : level.Sound map depth) (deep : depth ≤ (atomsOf rule.scope).length) :
    (level.apply (atomsOf rule.scope).length rule).numbered map =
      (level.numbered map).insertHere (styleOf map rule) := by
  have overwritten : ∀ style ∈ level.styles,
      (style.set (atomsOf rule.scope).length rule).numbered map =
        (style.numbered map).overwrite (styleOf map rule) := fun style member =>
    numbered_set started (Nat.le_trans (sound.depths style member) deep)
  simp only [Level.apply, Level.numbered, Trie.insertHere, parents_styleOf]
  cases parents : rule.parents with
  | none => simp [overwritten level.main List.mem_cons_self]
  | some list =>
    simp only [reduceCtorEq, if_false]
    split
    · next present =>
      have once : ((level.qualified.map (·.numbered map)).map (·.parents)).Nodup := by
        simpa [Function.comp_def] using sound.once
      rw [insertQualified_held once (by simpa [parents] using present), List.map_map, List.map_map]
      congr 1
      refine List.map_congr_left fun style member => ?_
      have overwritten := overwritten style (List.mem_cons_of_mem _ member)
      by_cases same : style.parents = some list <;> simp [same, parents, overwritten]
    · next absent =>
      rw [insertQualified_new (by simpa [parents] using absent), List.map_append,
        List.map_singleton, ← parents, numbered_inherited started]

/-- What holds of the styles of a level, and of what a rule makes of each, holds after the rule. -/
theorem forall_styles_apply {P : WrittenStyle → Prop} {level : Level}
    (holds : ∀ style ∈ level.styles, P style)
    (set : ∀ style ∈ level.styles, ∀ parents,
      P (WrittenStyle.set { style with parents := parents } depth rule)) :
    ∀ style ∈ (level.apply depth rule).styles, P style := by
  obtain ⟨main, qualified⟩ := level
  simp only [Level.styles, List.forall_mem_cons] at holds set
  rw [Level.apply, Level.styles, List.forall_mem_cons]
  split
  · exact ⟨set.1 main.parents, holds.2⟩
  · split
    · refine ⟨holds.1, List.forall_mem_map.mpr fun style member => ?_⟩
      split
      · exact set.2 style member style.parents
      · exact holds.2 style member
    · exact ⟨holds.1, List.forall_mem_append.mpr
        ⟨holds.2, List.forall_mem_singleton.mpr (set.1 rule.parents)⟩⟩

/-- Parents stay listed once when a rule is applied. -/
theorem once_apply {level : Level} (once : (level.qualified.map (·.parents)).Nodup) :
    ((level.apply depth rule).qualified.map (·.parents)).Nodup := by
  rw [Level.apply]
  split
  · exact once
  · split
    · have same : (fun style : WrittenStyle =>
          (if style.parents = rule.parents then style.set depth rule else style).parents) =
            fun style => style.parents := by
        funext style
        split <;> rfl
      simpa [Function.comp_def, same] using once
    · next absent =>
      rw [List.map_append, List.map_singleton, parents_set, List.nodup_append]
      refine ⟨once, by simp, ?_⟩
      simpa using absent

theorem has_or (color held : Option String) (new : map.Has color) (old : map.Has held) :
    map.Has (color.or held) := by
  cases color with
  | none => exact old
  | some text => exact new

/-- Applying a rule keeps a level sound for its depth. -/
theorem sound_apply {level : Level} {rule : Rule} (sound : level.Sound map shallow)
    (deep : shallow ≤ depth) (colored : rule.Colored map) :
    (level.apply depth rule).Sound map depth := by
  constructor
  · rw [Level.apply]
    split
    · exact sound.everywhere
    · split <;> exact sound.everywhere
  · exact once_apply sound.once
  · refine forall_styles_apply (fun style member => ?_) fun style member parents => Nat.le_refl _
    exact Nat.le_trans (sound.depths style member) deep
  · refine forall_styles_apply sound.colored fun style member parents => ?_
    obtain ⟨foreground, background⟩ := sound.colored style member
    exact ⟨has_or _ _ colored.1 foreground, has_or _ _ colored.2 background⟩

end Steps

section Levels

variable {map : ColorMap}

theorem numbered_start : Level.start.numbered map = .empty := rfl

theorem sound_start : Level.start.Sound map 0 where
  everywhere := rfl
  once := List.nodup_nil
  depths := by simp [Level.styles, Level.start]
  colored := by simp [Level.styles, Level.start, ColorMap.Has]

/-- Applying the rules for one number of atoms is putting their styles into a node. -/
theorem foldl_apply (started : map.Started) {rules : List Rule} {level : Level}
    (sound : level.Sound map shallow) (deep : shallow ≤ depth)
    (depths : ∀ rule ∈ rules, (atomsOf rule.scope).length = depth)
    (colored : ∀ rule ∈ rules, rule.Colored map) :
    (rules.foldl (Level.apply depth) level).Sound map depth ∧
      (rules.foldl (Level.apply depth) level).numbered map =
        (level.numbered map).insertAllHere (styleOf map) rules := by
  induction rules generalizing level shallow with
  | nil => exact ⟨⟨sound.everywhere, sound.once,
      fun style member => Nat.le_trans (sound.depths style member) deep, sound.colored⟩, rfl⟩
  | cons rule rules ih =>
    obtain ⟨own, rest⟩ := List.forall_mem_cons.mp depths
    obtain ⟨first, others⟩ := List.forall_mem_cons.mp colored
    obtain ⟨keeps, same⟩ := ih (sound_apply sound deep first) (Nat.le_refl depth) rest others
    refine ⟨keeps, ?_⟩
    subst own
    rw [List.foldl_cons, same, numbered_apply started sound deep]
    rfl

theorem prefix_take_succ {path atoms : List String} (more : depth < atoms.length) :
    path <+: atoms.take (depth + 1) ↔ path <+: atoms.take depth ∨ path = atoms.take (depth + 1) := by
  rw [List.prefix_take_iff, List.prefix_take_iff, Nat.le_succ_iff, and_or_left]
  refine or_congr Iff.rfl ?_
  constructor
  · rintro ⟨start, length⟩
    rw [← Nat.succ_eq_add_one, ← length]
    exact List.prefix_iff_eq_take.mp start
  · rintro rfl
    exact ⟨List.take_prefix .., List.length_take_of_le more⟩

/-- Items of two kinds, those of the first before those of the second, can be taken apart. -/
theorem filter_or {items : List α} {first second : α → Bool}
    (apart : ∀ item, second item → first item = false)
    (ordered : items.Pairwise fun earlier later => second earlier → first later = false) :
    items.filter (fun item => first item || second item) =
      items.filter first ++ items.filter second := by
  induction items with
  | nil => rfl
  | cons item items ih =>
    obtain ⟨here, rest⟩ := List.pairwise_cons.mp ordered
    have ih := ih rest
    cases late : second item with
    | false => cases early : first item <;> simp [late, early, ih]
    | true =>
      have none : items.filter first = [] :=
        List.filter_eq_nil_iff.mpr fun other member => by simp [here other member late]
      simp [late, apart item late, ih, none]

theorem scopedRules_sorted (rules : List Rule) : (scopedRules rules).Pairwise fun earlier later =>
    atomsOf later.scope <+: atomsOf earlier.scope → atomsOf later.scope = atomsOf earlier.scope := by
  rw [scopedRules_eq]
  exact (atoms_sorted rules).filter _

theorem filter_scopedRules_eq (rules : List Rule) {atoms : List String} (some : atoms ≠ []) :
    (scopedRules rules).filter (fun rule => atomsOf rule.scope = atoms) = rulesFor rules atoms := by
  rw [rulesFor, ← filter_sortRules, scopedRules_eq, List.filter_filter]
  refine List.filter_congr fun rule member => ?_
  by_cases own : atomsOf rule.scope = atoms
  · have named : rule.scope ≠ "" := fun none => some (own ▸ atomsOf_eq_nil.mpr none)
    simp [own, named]
  · simp [own]

/-- The rules for the starts of a scope, up to one more atom: the rules for fewer atoms stand first. -/
theorem filter_scopedRules (rules : List Rule) {atoms : List String} (more : depth < atoms.length) :
    ((scopedRules rules).filter fun rule => atomsOf rule.scope <+: atoms.take (depth + 1)) =
      ((scopedRules rules).filter fun rule => atomsOf rule.scope <+: atoms.take depth) ++
        rulesFor rules (atoms.take (depth + 1)) := by
  have shorter : atoms.take depth <+: atoms.take (depth + 1) :=
    List.take_prefix_take_left (Nat.le_succ depth)
  have beyond : ¬ atoms.take (depth + 1) <+: atoms.take depth := fun start => by
    have := start.length_le
    simp at this
    omega
  have some : atoms.take (depth + 1) ≠ [] := fun none => beyond (none ▸ List.nil_prefix)
  simp only [prefix_take_succ more, Bool.decide_or]
  rw [filter_or, filter_scopedRules_eq rules some]
  · intro rule same
    rw [of_decide_eq_true same]
    exact decide_eq_false beyond
  · refine (scopedRules_sorted rules).imp fun {earlier later} ordered same => ?_
    rw [decide_eq_true_iff] at same
    refine decide_eq_false fun start => beyond ?_
    rw [same] at ordered
    rw [← ordered (start.trans shorter)]
    exact start

/-- The level of the first atoms of a scope is what the rules for them make of an empty node. -/
theorem levelAt_numbered (started : map.Started) (rules : List Rule)
    (colored : ∀ rule ∈ scopedRules rules, rule.Colored map) (atoms : List String)
    (within : depth ≤ atoms.length) :
    (levelAt rules atoms depth).Sound map depth ∧
      (levelAt rules atoms depth).numbered map = Trie.empty.insertAllHere (styleOf map)
        ((scopedRules rules).filter fun rule => atomsOf rule.scope <+: atoms.take depth) := by
  induction depth with
  | zero =>
    have none : ((scopedRules rules).filter fun rule => atomsOf rule.scope <+: atoms.take 0) = [] := by
      rw [scopedRules_eq, List.filter_filter]
      simp [atomsOf_eq_nil]
    rw [none]
    exact ⟨sound_start, numbered_start⟩
  | succ depth ih =>
    obtain ⟨sound, same⟩ := ih (Nat.le_of_succ_le within)
    have some : atoms.take (depth + 1) ≠ [] := by
      rw [← List.length_pos_iff, List.length_take_of_le within]
      exact Nat.succ_pos depth
    have chosen : ∀ rule ∈ rulesFor rules (atoms.take (depth + 1)),
        rule ∈ scopedRules rules ∧ atomsOf rule.scope = atoms.take (depth + 1) := by
      intro rule member
      rw [← filter_scopedRules_eq rules some, List.mem_filter] at member
      exact ⟨member.1, of_decide_eq_true member.2⟩
    have applied := foldl_apply started sound (Nat.le_succ depth)
      (fun rule member => by rw [(chosen rule member).2, List.length_take_of_le within])
      fun rule member => colored rule (chosen rule member).1
    refine ⟨applied.1, applied.2.trans ?_⟩
    rw [filter_scopedRules rules within, same, Trie.insertAllHere, Trie.insertAllHere,
      Trie.insertAllHere, List.foldl_append]

/-- A level depends on no rules but those for the starts of the scope. -/
theorem levelAt_congr {others : List Rule} {atoms : List String}
    (alike : (others.filter fun rule => rule.scope ≠ "" ∧ atomsOf rule.scope <+: atoms) =
      rules.filter fun rule => rule.scope ≠ "" ∧ atomsOf rule.scope <+: atoms)
    (within : depth ≤ atoms.length) : levelAt others atoms depth = levelAt rules atoms depth := by
  induction depth with
  | zero => rfl
  | succ depth ih =>
    have own : ∀ rules : List Rule, (rules.filter fun rule =>
          atomsOf rule.scope = atoms.take (depth + 1)) =
        (rules.filter fun rule => rule.scope ≠ "" ∧ atomsOf rule.scope <+: atoms).filter fun rule =>
          atomsOf rule.scope = atoms.take (depth + 1) := by
      intro rules
      rw [List.filter_filter]
      refine List.filter_congr fun rule _ => ?_
      by_cases same : atomsOf rule.scope = atoms.take (depth + 1)
      · have named : rule.scope ≠ "" := by
          intro none
          rw [atomsOf_eq_nil.mpr none] at same
          have := congrArg List.length same
          rw [List.length_take_of_le within] at this
          cases this
        simp [same, named, List.take_prefix]
      · simp [same]
    rw [levelAt, levelAt, ih (Nat.le_of_succ_le within), rulesFor, rulesFor, own, alike, ← own]

end Levels

section Found

/-- The parents that a style asks for are among the scopes that enclose another. -/
def StyleRule.Holds (ancestors : List String) (style : StyleRule) : Prop :=
  ∀ parents, style.parents = some parents → matchesParents parents ancestors = true

/-- A list of styles has been put in the order in which they are tried, and styles that are as
specific as each other have kept theirs. -/
structure SortedStably (before after : List StyleRule) : Prop where
  same : after.Perm before
  sorted : after.Pairwise fun left right => (left.compareSpecificity right).isLE = true
  stable : ∀ left right, [left, right].Sublist before →
    (left.compareSpecificity right).isLE = true → [left, right].Sublist after

theorem sortedStably_sortBySpecificity (styles : List StyleRule) :
    SortedStably styles (StyleRule.sortBySpecificity styles) where
  same := List.mergeSort_perm ..
  sorted := List.pairwise_mergeSort (fun _ _ _ => TransCmp.isLE_trans) isLE_total styles
  stable _ _ ordered alike :=
    List.pair_sublist_mergeSort (fun _ _ _ => TransCmp.isLE_trans) isLE_total alike ordered

/-- The style with its colours in capitals. -/
def WrittenStyle.capital (style : WrittenStyle) : WrittenStyle :=
  { style with
    foreground := style.foreground.map Text.toUpper
    background := style.background.map Text.toUpper }

/-- The style with the colours that its numbers stand for. -/
def StyleRule.resolved (map : ColorMap) (style : StyleRule) : WrittenStyle where
  depth := style.depth
  parents := style.parents
  fontStyle := style.fontStyle
  foreground := map.color? style.foreground
  background := map.color? style.background

theorem resolved_numbered {map : ColorMap} (started : map.Started) {style : WrittenStyle}
    (colored : map.Has style.foreground ∧ map.Has style.background) :
    (style.numbered map).resolved map = style.capital := by
  simp only [StyleRule.resolved, WrittenStyle.numbered, WrittenStyle.capital,
    ColorMap.color?_number started colored.1, ColorMap.color?_number started colored.2]

/-- Styles are tried in an order that does not depend on the numbers of colours. -/
theorem sortBySpecificity_numbered (map : ColorMap) (styles : List WrittenStyle) :
    StyleRule.sortBySpecificity (styles.map (·.numbered map)) =
      (styles.mergeSort fun left right =>
        ((left.numbered {}).compareSpecificity (right.numbered {})).isLE).map (·.numbered map) := by
  rw [StyleRule.sortBySpecificity, List.map_mergeSort]
  intro left _ right _
  rfl

/-- The styles that a theme finds for a scope, before they are sorted. -/
def stylesFor (rules : List Rule) (scope : String) : List WrittenStyle :=
  (levelAt rules (atomsOf scope) (atomsOf scope).length).styles

theorem bare_empty (atoms : List String) : Trie.empty.Bare atoms :=
  Trie.bare_leaf atoms .empty

theorem held_empty (atoms : List String) : Trie.held atoms .empty = .empty :=
  Trie.held_leaf atoms .empty

/-- What the tree holds for atoms is the level of the rules, with numbers for its colours. -/
theorem held_ofRules (name : Option String) (rules : List Rule) (atoms : List String) :
    (levelAt rules atoms atoms.length).Sound (ofRules name rules).colorMap atoms.length ∧
      Trie.held atoms (ofRules name rules).trie =
        (levelAt rules atoms atoms.length).numbered (ofRules name rules).colorMap := by
  have put := putIn_ofRules name rules
  obtain ⟨sound, same⟩ :=
    levelAt_numbered (colorMap_started name rules) rules put.colored atoms (Nat.le_refl atoms.length)
  rw [List.take_length] at same
  refine ⟨sound, ?_⟩
  calc Trie.held atoms (ofRules name rules).trie
      = Trie.held atoms (Trie.empty.insertAll (styleOf (ofRules name rules).colorMap)
          (scopedRules rules)) := congrArg (Trie.held atoms) put.inserted
    _ = (Trie.held atoms .empty).insertAllHere (styleOf (ofRules name rules).colorMap)
          ((scopedRules rules).filter fun rule => atomsOf rule.scope <+: atoms) :=
        Trie.held_insertAll _ (scopedRules_sorted rules)
          (fun rule _ => bare_empty (atomsOf rule.scope)) atoms
    _ = Trie.empty.insertAllHere (styleOf (ofRules name rules).colorMap)
          ((scopedRules rules).filter fun rule => atomsOf rule.scope <+: atoms) := by
        rw [held_empty]
    _ = (levelAt rules atoms atoms.length).numbered (ofRules name rules).colorMap := same.symm

theorem find_ofRules (name : Option String) (rules : List Rule) (scope : String) :
    (ofRules name rules).trie.find (atomsOf scope) = StyleRule.sortBySpecificity
      ((stylesFor rules scope).map (·.numbered (ofRules name rules).colorMap)) := by
  rw [Trie.find_eq, (held_ofRules name rules (atomsOf scope)).2]
  rfl

theorem find_resolved (name : Option String) (rules : List Rule) (scope : String) :
    ((ofRules name rules).trie.find (atomsOf scope)).map
        (·.resolved (ofRules name rules).colorMap) =
      ((stylesFor rules scope).mergeSort fun left right =>
        ((left.numbered {}).compareSpecificity (right.numbered {})).isLE).map (·.capital) := by
  rw [find_ofRules, sortBySpecificity_numbered, List.map_map]
  refine List.map_congr_left fun style member => ?_
  have member : style ∈ stylesFor rules scope := List.mem_mergeSort.mp member
  exact resolved_numbered (colorMap_started name rules)
    ((held_ofRules name rules (atomsOf scope)).1.colored style member)

theorem applies_iff (ancestors : List String) (style : StyleRule) :
    (match style.parents with
      | none => true
      | some parents => matchesParents parents ancestors) = true ↔ style.Holds ancestors := by
  cases parents : style.parents <;> simp [StyleRule.Holds, parents]

theorem exists_first_holding (ancestors : List String) {styles : List StyleRule}
    (main : ∃ style ∈ styles, style.parents = none) : ∃ style, styles.find? (fun style =>
      match style.parents with
      | none => true
      | some parents => matchesParents parents ancestors) = some style := by
  obtain ⟨style, member, everywhere⟩ := main
  rw [← Option.isSome_iff_exists, List.find?_isSome]
  exact ⟨style, member, by simp [everywhere]⟩

/-- The style for everywhere is always among those found, so one of them holds. -/
theorem matchScope_eq (name : Option String) (rules : List Rule) (scope : String)
    (ancestors : List String) : ∃ before style after,
    (ofRules name rules).trie.find (atomsOf scope) = before ++ style :: after ∧
      (∀ earlier ∈ before, ¬ earlier.Holds ancestors) ∧ style.Holds ancestors ∧
      (ofRules name rules).matchScope scope ancestors =
        some ⟨style.fontStyle, style.foreground, style.background⟩ := by
  have everywhere := (held_ofRules name rules (atomsOf scope)).1.everywhere
  have main : ∃ style ∈ (ofRules name rules).trie.find (atomsOf scope), style.parents = none := by
    rw [find_ofRules]
    exact ⟨_, List.mem_mergeSort.mpr (List.mem_map_of_mem List.mem_cons_self), everywhere⟩
  obtain ⟨style, first⟩ := exists_first_holding ancestors main
  obtain ⟨holds, before, after, whole, early⟩ := List.find?_eq_some_iff_append.mp first
  refine ⟨before, style, after, whole, fun earlier member holds => ?_, (applies_iff ..).mp holds, ?_⟩
  · have late := early earlier member
    rw [(applies_iff ..).mpr holds] at late
    cases late
  · exact congrArg (Option.map fun style : StyleRule =>
      (⟨style.fontStyle, style.foreground, style.background⟩ : StyleAttributes)) first

end Found

/-- What a theme finds for a scope comes level by level from the rules for its starts. -/
structure ByLevels (theme : Theme) (rules : List Rule) (scope : String) : Prop where
  /-- The atoms are what is cut off at the first dot until nothing remains. -/
  atoms : atomsOf scope =
    match Text.cut '.' scope with
    | some (first, rest) => first :: atomsOf rest
    | none => if scope = "" then [] else [scope]
  /-- The styles of the last level are found, with the numbers of their colours. -/
  found : theme.trie.find (atomsOf scope) = StyleRule.sortBySpecificity
    ((stylesFor rules scope).map (·.numbered theme.colorMap))
  /-- They are found in the order in which they are tried. -/
  sorted : SortedStably ((stylesFor rules scope).map (·.numbered theme.colorMap))
    (theme.trie.find (atomsOf scope))
  /-- The numbers stand for the colours that the rules write. -/
  colors : ∀ style ∈ stylesFor rules scope,
    (style.numbered theme.colorMap).resolved theme.colorMap = style.capital
  /-- A theme with other rules for other scopes finds the same. -/
  alone : ∀ otherName others,
    (others.filter fun rule => rule.scope ≠ "" ∧ atomsOf rule.scope <+: atomsOf scope) =
      (rules.filter fun rule => rule.scope ≠ "" ∧ atomsOf rule.scope <+: atomsOf scope) →
    ((ofRules otherName others).trie.find (atomsOf scope)).map
        (·.resolved (ofRules otherName others).colorMap) =
      (theme.trie.find (atomsOf scope)).map (·.resolved theme.colorMap)
  /-- The style of the first whose parents are there is what the scope has inside others. -/
  matched : ∀ ancestors, ∃ before style after,
    theme.trie.find (atomsOf scope) = before ++ style :: after ∧
      (∀ earlier ∈ before, ¬ earlier.Holds ancestors) ∧ style.Holds ancestors ∧
      theme.matchScope scope ancestors =
        some ⟨style.fontStyle, style.foreground, style.background⟩

/-- Every theme finds the styles of every scope level by level: what holds for a scope is what the
rules for exactly its atoms make, in their order, of what holds for the scope with one atom less. -/
theorem scope_styles_by_levels (name : Option String) (rules : List Rule) (scope : String) :
    ByLevels (ofRules name rules) rules scope where
  atoms := atomsOf_cut scope
  found := find_ofRules name rules scope
  sorted := by
    rw [find_ofRules]
    exact sortedStably_sortBySpecificity _
  colors style member := resolved_numbered (colorMap_started name rules)
    ((held_ofRules name rules (atomsOf scope)).1.colored style member)
  alone otherName others alike := by
    rw [find_resolved, find_resolved, stylesFor, levelAt_congr alike (Nat.le_refl _), ← stylesFor]
  matched := matchScope_eq name rules scope

end Theme
end ScopeLexer

import Mathlib.Data.List.Chain
import Mathlib.Order.Nat
import ScopeLexer.Proofs.SelectorMeaning
import ScopeLexer.Theme.Rule

/-! Which scopes a rule of a theme asks for around its own. The requirements can be met if there are
places for all of them: each at a scope that it covers, further out than the one before it, a direct
one right outside of that. They are looked for by one pass from the inside, in which every requirement
takes the first place that it can have. Such a pass finds places wherever there are some, as long as no
direct requirement comes after one that is not; after one, the first place that would do may lead
nowhere, and no other is tried. -/
namespace ScopeLexer

namespace Scope

/-- A scope covers itself. -/
theorem covers_text (scope : Scope) : scope.covers scope.text = true := by
  by_cases named : scope.text = ""
  · rw [covers, named]
    rfl
  · exact (coversText_iff named).mpr (.inl rfl)

/-- A scope with a name does not cover the one without. -/
theorem covers_empty {scope : Scope} (named : scope.text ≠ "") : scope.covers "" = false := by
  rw [covers, ← Bool.not_eq_true, coversText_iff named]
  rintro (same | ⟨more, same⟩)
  · exact named same.symm
  · simpa using congrArg String.toList same

end Scope

namespace Theme

/-- What stands at a place is a scope that a parent covers. -/
def Covered (ancestors : List String) (parent : Parent) (place : Nat) : Prop :=
  ∃ scope, ancestors[place]? = some scope ∧ parent.scope.covers scope = true

/-- A parent can have a place, `first` being the first one that is still free: it covers the scope
there, and a direct one stands nowhere further out. -/
structure Fits (ancestors : List String) (first : Nat) (parent : Parent) (place : Nat) : Prop where
  free : first ≤ place
  near : parent.direct = true → place = first
  covered : Covered ancestors parent place

/-- There is no place that a parent could have before the one that it has. -/
structure FitsFirst (ancestors : List String) (first : Nat) (parent : Parent) (place : Nat) : Prop
    extends Fits ancestors first parent place where
  earliest : ∀ earlier, first ≤ earlier → earlier < place → ¬ Covered ancestors parent earlier

/-- Places for parents, from the first free place on: each fits outside of the one before it. -/
inductive Placed (Fits : Nat → Parent → Nat → Prop) : Nat → List Parent → List Nat → Prop where
  | nil (first : Nat) : Placed Fits first [] []
  | cons (fits : Fits first parent place) (outer : Placed Fits (place + 1) parents places) :
      Placed Fits first (parent :: parents) (place :: places)

variable {ancestors : List String} {parent : Parent} {parents : List Parent} {places : List Nat}

theorem Placed.mono {Fits Wider : Nat → Parent → Nat → Prop}
    (wider : ∀ first parent place, Fits first parent place → Wider first parent place)
    (placed : Placed Fits first parents places) : Placed Wider first parents places := by
  induction placed with
  | nil first => exact .nil first
  | cons fits outer ih => exact .cons (wider _ _ _ fits) ih

/-- A parent covers no scope from a place on, or there is a first one that it covers. -/
theorem dropWhile_drop (ancestors : List String) (parent : Parent) (first : Nat) :
    ((∀ place, first ≤ place → ¬ Covered ancestors parent place) ∧
      ((ancestors.drop first).dropWhile fun scope => !parent.scope.covers scope) = []) ∨
    ∃ place scope, first ≤ place ∧ Covered ancestors parent place ∧
      (∀ earlier, first ≤ earlier → earlier < place → ¬ Covered ancestors parent earlier) ∧
      ((ancestors.drop first).dropWhile fun scope => !parent.scope.covers scope) =
        scope :: ancestors.drop (place + 1) := by
  -- By induction on how many scopes there are from the place on.
  induction left : ancestors.length - first generalizing first with
  | zero =>
    have outside : ancestors.length ≤ first := by omega
    refine .inl ⟨fun place after covered => ?_, by rw [List.drop_eq_nil_of_le outside]; rfl⟩
    obtain ⟨scope, there, _⟩ := covered
    rw [List.getElem?_eq_none (Nat.le_trans outside after)] at there
    cases there
  | succ left ih =>
    have inside : first < ancestors.length := by omega
    have here : ancestors[first]? = some ancestors[first] := List.getElem?_eq_getElem inside
    rw [List.drop_eq_getElem_cons inside]
    by_cases covers : parent.scope.covers ancestors[first] = true
    · refine .inr ⟨first, ancestors[first], Nat.le_refl _, ⟨_, here, covers⟩, ?_, ?_⟩
      · omega
      · rw [List.dropWhile_cons_of_neg (by simp [covers])]
    · have apart : ¬ Covered ancestors parent first := by
        rintro ⟨scope, there, covered⟩
        rw [here] at there
        cases there
        exact covers covered
      have later {place : Nat} (after : first ≤ place) (covered : Covered ancestors parent place) :
          first + 1 ≤ place :=
        Nat.lt_of_le_of_ne after (by rintro rfl; exact apart covered)
      rw [List.dropWhile_cons_of_pos (by simp [covers])]
      rcases ih (first + 1) (by omega) with ⟨nowhere, none⟩ | ⟨place, scope, after, held, before, rest⟩
      · exact .inl ⟨fun place after covered => nowhere place (later after covered) covered, none⟩
      · exact .inr ⟨place, scope, Nat.le_of_succ_le after, held,
          fun earlier after lt covered => before earlier (later after covered) lt covered, rest⟩

/-- The pass gives each parent the first place that it can have. -/
theorem matchesParents_drop (ancestors : List String) (parents : List Parent) (first : Nat) :
    matchesParents parents (ancestors.drop first) = true ↔
      ∃ places, Placed (FitsFirst ancestors) first parents places := by
  induction parents generalizing first with
  | nil => exact iff_of_true rfl ⟨[], .nil first⟩
  | cons parent parents ih =>
    rw [matchesParents.eq_def]
    simp only
    by_cases direct : parent.direct = true
    · rw [if_pos direct]
      by_cases inside : first < ancestors.length
      · have here : ancestors[first]? = some ancestors[first] := List.getElem?_eq_getElem inside
        rw [List.drop_eq_getElem_cons inside]
        simp only [Bool.and_eq_true, ih]
        constructor
        · rintro ⟨covers, places, outer⟩
          refine ⟨first :: places, .cons ⟨⟨Nat.le_refl _, fun _ => rfl, _, here, covers⟩, ?_⟩ outer⟩
          omega
        · rintro ⟨_, _ | ⟨fits, outer⟩⟩
          obtain rfl := fits.near direct
          obtain ⟨scope, there, covered⟩ := fits.covered
          cases here.symm.trans there
          exact ⟨covered, _, outer⟩
      · rw [List.drop_eq_nil_of_le (Nat.le_of_not_lt inside)]
        refine iff_of_false Bool.false_ne_true ?_
        rintro ⟨_, _ | ⟨fits, _⟩⟩
        obtain rfl := fits.near direct
        obtain ⟨scope, there, _⟩ := fits.covered
        rw [List.getElem?_eq_none (Nat.le_of_not_lt inside)] at there
        cases there
    · rw [if_neg direct]
      rcases dropWhile_drop ancestors parent first with
        ⟨nowhere, none⟩ | ⟨place, scope, after, covered, earliest, rest⟩
      · rw [none]
        refine iff_of_false Bool.false_ne_true ?_
        rintro ⟨_, _ | ⟨fits, _⟩⟩
        exact nowhere _ fits.free fits.covered
      · rw [rest]
        simp only [ih]
        constructor
        · rintro ⟨places, outer⟩
          exact ⟨place :: places,
            .cons ⟨⟨after, fun direct' => absurd direct' direct, covered⟩, earliest⟩ outer⟩
        · rintro ⟨_, _ | ⟨fits, outer⟩⟩
          -- Both places are the first one, so they are the same.
          rename_i other others
          have same : other = place := by
            rcases Nat.lt_trichotomy other place with lt | same | gt
            · exact absurd fits.covered (earliest other fits.free lt)
            · exact same
            · exact absurd covered (fits.earliest place after gt)
          exact ⟨others, same ▸ outer⟩

/-- No direct parent comes after one that may stand anywhere. -/
def DirectFirst (parents : List Parent) : Prop :=
  parents.IsChain fun inner outer => outer.direct = true → inner.direct = true

/-- A parent that may stand anywhere can keep its place if more places are free. -/
theorem Placed.widen (placed : Placed (Fits ancestors) first (parent :: parents) places)
    (anywhere : ¬ parent.direct = true) (le : less ≤ first) :
    Placed (Fits ancestors) less (parent :: parents) places := by
  cases placed with
  | cons fits outer =>
    exact .cons ⟨Nat.le_trans le fits.free, fun direct => absurd direct anywhere, fits.covered⟩ outer

/-- If direct parents come first and there are places for all, there are places that a pass finds. -/
theorem Placed.eager (direct : DirectFirst parents) (placed : Placed (Fits ancestors) first parents places) :
    ∃ places, Placed (FitsFirst ancestors) first parents places := by
  induction parents generalizing first places with
  | nil => exact ⟨[], .nil first⟩
  | cons parent parents ih =>
    cases placed with
    | cons fits outer =>
      rename_i place places
      by_cases near : parent.direct = true
      · obtain rfl := fits.near near
        obtain ⟨others, eager⟩ := ih direct.tail outer
        exact ⟨place :: others, .cons ⟨fits, fun _ _ _ => by omega⟩ eager⟩
      · -- The first place that will do is not further out, and what comes after may stand anywhere.
        classical
        have some : ∃ place, first ≤ place ∧ Covered ancestors parent place :=
          ⟨place, fits.free, fits.covered⟩
        obtain ⟨free, covered⟩ := Nat.find_spec some
        have sooner : Nat.find some ≤ place := Nat.find_le ⟨fits.free, fits.covered⟩
        have goesOn : Placed (Fits ancestors) (Nat.find some + 1) parents places := by
          cases parents with
          | nil =>
            cases outer
            exact .nil _
          | cons next parents =>
            exact outer.widen (fun also => near (List.isChain_cons_cons.mp direct |>.1 also))
              (Nat.succ_le_succ sooner)
        obtain ⟨others, eager⟩ := ih direct.tail goesOn
        exact ⟨Nat.find some :: others, .cons ⟨⟨free, fun also => absurd also near, covered⟩,
          fun earlier after lt also => Nat.find_min some lt ⟨after, also⟩⟩ eager⟩

/-- One more scope on the inside moves all places. -/
theorem Placed.shift (placed : Placed (Fits ancestors) first parents places) (scope : String) :
    Placed (Fits (scope :: ancestors)) (first + 1) parents (places.map (· + 1)) := by
  induction placed with
  | nil first => exact .nil _
  | cons fits outer ih =>
    refine .cons ⟨Nat.succ_le_succ fits.free, fun direct => by rw [fits.near direct], ?_⟩ ih
    obtain ⟨held, there, covered⟩ := fits.covered
    exact ⟨held, by rw [List.getElem?_cons_succ]; exact there, covered⟩

/-- The scopes that parents name are places for them. -/
theorem placed_own (parents : List Parent) :
    ∃ places, Placed (Fits (parents.map (·.scope.text))) 0 parents places := by
  induction parents with
  | nil => exact ⟨[], .nil 0⟩
  | cons parent parents ih =>
    obtain ⟨places, placed⟩ := ih
    exact ⟨0 :: places.map (· + 1), .cons ⟨Nat.le_refl _, fun _ => rfl, parent.scope.text, rfl,
      parent.scope.covers_text⟩ (placed.shift _)⟩

/-- The first scope on the inside is taken by the first parent if it is covered. -/
theorem matchesParents_cons_own (parent : Parent) (parents : List Parent) (outer : List String) :
    matchesParents (parent :: parents) (parent.scope.text :: outer) =
      matchesParents parents outer := by
  rw [matchesParents]
  simp [parent.scope.covers_text]

/-- Wherever a direct parent comes after one that may stand anywhere, some scopes are overlooked. -/
theorem exists_overlooked (named : ∀ parent ∈ parents, parent.scope.text ≠ "")
    (late : ¬ DirectFirst parents) :
    ∃ ancestors places, Placed (Fits ancestors) 0 parents places ∧
      matchesParents parents ancestors = false := by
  induction parents with
  | nil => exact absurd List.isChain_nil late
  | cons inner parents ih =>
    obtain ⟨_, namedAll⟩ := List.forall_mem_cons.mp named
    by_cases later : DirectFirst parents
    · cases parents with
      | nil => exact absurd (List.isChain_singleton _) late
      | cons outer parents =>
        have broken : ¬ (outer.direct = true → inner.direct = true) := fun chained =>
          late (List.isChain_cons_cons.mpr ⟨chained, later⟩)
        obtain ⟨direct, anywhere⟩ := Classical.not_imp.mp broken
        -- The inner one takes the first of two places, and outside of that its neighbour finds nothing.
        obtain ⟨places, placed⟩ := placed_own (inner :: outer :: parents)
        have moved := ((placed.shift "").shift inner.scope.text).widen anywhere (Nat.zero_le _)
        refine ⟨_, _, moved, ?_⟩
        rw [matchesParents_cons_own, matchesParents, if_pos direct]
        simp [Scope.covers_empty (namedAll outer List.mem_cons_self)]
    · obtain ⟨ancestors, places, placed, overlooked⟩ := ih namedAll later
      refine ⟨inner.scope.text :: ancestors, 0 :: places.map (· + 1), ?_, ?_⟩
      · exact .cons ⟨Nat.le_refl _, fun _ => rfl, _, rfl, inner.scope.covers_text⟩ (placed.shift _)
      · rw [matchesParents_cons_own]
        exact overlooked

/-- What the pass over the enclosing scopes finds. It succeeds exactly if each parent can have the first
place that fits it outside of the one before; so a success always shows places for all parents. If
direct parents come first, it succeeds wherever there are such places, and if they do not, there are
enclosing scopes with places for all parents at which it fails. -/
theorem matchesParents_finds_first (parents : List Parent) :
    (∀ ancestors, matchesParents parents ancestors = true ↔
      ∃ places, Placed (FitsFirst ancestors) 0 parents places) ∧
    (∀ ancestors, matchesParents parents ancestors = true →
      ∃ places, Placed (Fits ancestors) 0 parents places) ∧
    (DirectFirst parents → ∀ ancestors, matchesParents parents ancestors = true ↔
      ∃ places, Placed (Fits ancestors) 0 parents places) ∧
    ((∀ parent ∈ parents, parent.scope.text ≠ "") → ¬ DirectFirst parents →
      ∃ ancestors places, Placed (Fits ancestors) 0 parents places ∧
        matchesParents parents ancestors = false) := by
  have first (ancestors : List String) : matchesParents parents ancestors = true ↔
      ∃ places, Placed (FitsFirst ancestors) 0 parents places := by
    have found := matchesParents_drop ancestors parents 0
    rwa [List.drop_zero] at found
  have sound (ancestors : List String) (found : matchesParents parents ancestors = true) :
      ∃ places, Placed (Fits ancestors) 0 parents places := by
    obtain ⟨places, placed⟩ := (first ancestors).mp found
    exact ⟨places, placed.mono fun _ _ _ fits => fits.toFits⟩
  refine ⟨first, sound, fun direct ancestors => ⟨sound ancestors, ?_⟩, exists_overlooked⟩
  rintro ⟨places, placed⟩
  exact (first ancestors).mpr (placed.eager direct)

/-- The scope `a` stands inside another and directly inside `b` as well, but the first place for it is
not directly inside `b`. -/
theorem direct_parent_overlooked :
    parseSelector "b > a t" = ("t", some [⟨false, ⟨"a"⟩⟩, ⟨true, ⟨"b"⟩⟩]) ∧
    matchesParents [⟨false, ⟨"a"⟩⟩, ⟨true, ⟨"b"⟩⟩] ["a", "x", "a", "b"] = false ∧
    Placed (Fits ["a", "x", "a", "b"]) 0 [⟨false, ⟨"a"⟩⟩, ⟨true, ⟨"b"⟩⟩] [2, 3] := by
  refine ⟨by decide, by decide, .cons ?_ (.cons ?_ (.nil 4))⟩
  · exact ⟨by decide, nofun, "a", rfl, by decide⟩
  · exact ⟨by decide, fun _ => rfl, "b", rfl, by decide⟩

end Theme
end ScopeLexer

import ScopeLexer.Theme.Basic

/-!
The order in which the rules of a theme are applied. Rules are sorted by the text of their scope, so a
rule for some atoms stands before every rule that has more atoms after them: its scope is a start of
the other's text, also where a scope ends in a dot or has empty atoms.
-/
namespace ScopeLexer.Theme

open Std

section Orders

/-- Comparing by what a function gives is an order if comparing its values is. -/
theorem transCmp_on {compare : β → β → Ordering} [TransCmp compare] (key : α → β) :
    TransCmp fun left right => compare (key left) (key right) where
  eq_swap := OrientedCmp.eq_swap
  isLE_trans := TransCmp.isLE_trans

instance : TransCmp Parent.compare :=
  inferInstanceAs (TransCmp (compareLex (compareOn Parent.direct) (compareOn (·.scope.text))))

/-- Parents that compare alike are the same. -/
instance : LawfulEqCmp Parent.compare where
  eq_of_compare {left right} alike := by
    obtain ⟨direct, scope⟩ := Ordering.then_eq_eq.mp alike
    obtain ⟨leftDirect, ⟨leftText⟩⟩ := left
    obtain ⟨rightDirect, ⟨rightText⟩⟩ := right
    cases LawfulEqOrd.eq_of_compare direct
    cases LawfulEqOrd.eq_of_compare scope
    rfl

theorem compareItems_eq : compareItems = List.compareLex Parent.compare := by
  funext lefts rights
  fun_induction compareItems lefts rights with
  | case1 => rfl
  | case2 => rfl
  | case3 => rfl
  | case4 left lefts right rights ih => rw [List.compareLex_cons_cons, ih]

/-- Requirements compare by whether there are any, by their number, and then item by item. -/
theorem compareParents_eq : compareParents =
    compareLex (compareOn Option.isSome) (compareLex (compareOn fun parents => (parents.getD []).length)
      fun left right => List.compareLex Parent.compare (left.getD []) (right.getD [])) := by
  funext left right
  cases left with
  | none => cases right <;> rfl
  | some lefts =>
    cases right with
    | none => rfl
    | some rights => simp [compareParents, compareLex, compareOn, compareItems_eq]

instance : TransCmp compareParents := by
  have items : TransCmp fun left right : Option (List Parent) =>
      List.compareLex Parent.compare (left.getD []) (right.getD []) := transCmp_on _
  rw [compareParents_eq]
  infer_instance

/-- Requirements that compare alike are the same. -/
instance : LawfulEqCmp compareParents where
  eq_of_compare {left right} alike := by
    cases left with
    | none =>
      cases right with
      | none => rfl
      | some rights => cases alike
    | some lefts =>
      cases right with
      | none => cases alike
      | some rights =>
        have items : compareItems lefts rights = .eq := (Ordering.then_eq_eq.mp alike).2
        rw [compareItems_eq] at items
        rw [LawfulEqCmp.eq_of_compare items]

instance : TransCmp Rule.compare := by
  have parents : TransCmp fun left right : Rule => compareParents left.parents right.parents :=
    transCmp_on _
  exact inferInstanceAs (TransCmp (compareLex (compareOn Rule.scope)
    (compareLex (fun left right => compareParents left.parents right.parents)
      (compareOn Rule.index))))

/-- Longer scopes come first, and of lists that agree the longer one: the order of the lists of
lengths, read backwards. -/
theorem compareLengths_eq (lefts rights : List Parent) :
    StyleRule.compareLengths lefts rights =
      List.compareLex compare (rights.map (·.scope.text.utf8ByteSize))
        (lefts.map (·.scope.text.utf8ByteSize)) := by
  fun_induction StyleRule.compareLengths lefts rights with
  | case1 left lefts right rights ih =>
    rw [List.map_cons, List.map_cons, List.compareLex_cons_cons, ih]
  | case2 lefts rights ends =>
    cases lefts with
    | nil => cases rights <;> rfl
    | cons left lefts =>
      cases rights with
      | nil => rfl
      | cons right rights => exact absurd rfl (ends left lefts right rights rfl)

instance : TransCmp StyleRule.compareSpecificity := by
  have lengths : TransCmp fun left right : StyleRule =>
      StyleRule.compareLengths (left.parents.getD []) (right.parents.getD []) := by
    simp only [compareLengths_eq]
    have backwards : TransCmp fun left right : List Nat =>
      List.compareLex compare right left := inferInstance
    let lengths (style : StyleRule) : List Nat :=
      (style.parents.getD []).map (·.scope.text.utf8ByteSize)
    exact @transCmp_on _ _ _ backwards lengths
  exact inferInstanceAs (TransCmp (compareLex (fun left right => compareOn StyleRule.depth right left)
    fun left right => StyleRule.compareLengths (left.parents.getD []) (right.parents.getD [])))

end Orders

section Sorting

variable {le : α → α → Bool}

/-- Sorting puts an item before those that are not less and after those that are. -/
theorem mergeSort_cons_eq (trans : ∀ a b c, le a b → le b c → le a c)
    (total : ∀ a b, (le a b || le b a) = true) (item : α) (items : List α) :
    (item :: items).mergeSort le = (items.mergeSort le).filter (fun other => !le item other) ++
      item :: (items.mergeSort le).filter (le item) := by
  obtain ⟨before, after, whole, rest, early⟩ := List.mergeSort_cons trans total item items
  have late : ∀ other ∈ after, le item other := by
    have sorted := List.pairwise_mergeSort trans total (item :: items)
    rw [whole] at sorted
    exact (List.pairwise_cons.mp (List.pairwise_append.mp sorted).2.1).1
  rw [whole, rest, List.filter_append, List.filter_append, List.filter_eq_self.mpr early,
    List.filter_eq_self.mpr late, List.filter_eq_nil_iff.mpr (by simpa using late),
    List.filter_eq_nil_iff.mpr (by simpa using early)]
  simp

/-- Sorting is stable: it makes no difference whether items are left out before or after. -/
theorem filter_mergeSort (trans : ∀ a b c, le a b → le b c → le a c)
    (total : ∀ a b, (le a b || le b a) = true) (keep : α → Bool) (items : List α) :
    (items.mergeSort le).filter keep = (items.filter keep).mergeSort le := by
  induction items with
  | nil => simp
  | cons item items ih =>
    by_cases kept : keep item = true
    · rw [List.filter_cons_of_pos kept, mergeSort_cons_eq trans total, mergeSort_cons_eq trans total,
        ← ih]
      simp [kept, Bool.and_comm]
    · obtain ⟨before, after, whole, rest, -⟩ := List.mergeSort_cons trans total item items
      rw [List.filter_cons_of_neg kept, ← ih, whole, rest]
      simp [kept]

end Sorting

section Rules

theorem isLE_total {order : α → α → Ordering} [TransCmp order] (left right : α) :
    ((order left right).isLE || (order right left).isLE) = true := by
  have swapped : order right left = (order left right).swap := OrientedCmp.eq_swap
  rw [swapped]
  cases order left right <;> rfl

theorem sortRules_sorted (rules : List Rule) :
    (sortRules rules).Pairwise fun left right => (left.compare right).isLE = true :=
  List.pairwise_mergeSort (fun _ _ _ => TransCmp.isLE_trans) isLE_total rules

theorem filter_sortRules (keep : Rule → Bool) (rules : List Rule) :
    (sortRules rules).filter keep = sortRules (rules.filter keep) :=
  filter_mergeSort (fun _ _ _ => TransCmp.isLE_trans) isLE_total keep rules

theorem compare_eq_gt_of_lt {left right : String} (less : right < left) :
    compare left right = .gt := by
  have later : ¬ left < right := String.lt_asymm less
  have different : left ≠ right := by
    rintro rfl
    exact String.lt_irrefl _ less
  simp [compare, String.compare, compareOfLessAndEq, later, different]

/-- Sorted rules have scopes whose texts do not go down. -/
theorem scopes_sorted (rules : List Rule) :
    (sortRules rules).Pairwise fun left right => ¬ right.scope < left.scope := by
  refine (sortRules_sorted rules).imp fun {left right} ordered less => ?_
  simp [Rule.compare, compare_eq_gt_of_lt less] at ordered

end Rules

section Atoms

/-- Atoms with one more character at the start. -/
def pushChar (c : Char) : List (List Char) → List (List Char)
  | [] => [[c]]
  | atom :: atoms => (c :: atom) :: atoms

/-- The atoms of a scope, on characters. -/
def charAtoms : List Char → List (List Char)
  | [] => []
  | c :: rest => if c = '.' then [] :: charAtoms rest else pushChar c (charAtoms rest)

theorem pushChar_ne_nil_cons (c : Char) (atoms others : List (List Char)) :
    pushChar c atoms ≠ [] :: others := by
  cases atoms <;> simp [pushChar]

theorem eq_nil_of_charAtoms {chars : List Char} (none : charAtoms chars = []) : chars = [] := by
  cases chars with
  | nil => rfl
  | cons c rest =>
    rw [charAtoms] at none
    split at none
    · cases none
    · cases own : charAtoms rest <;> simp [pushChar, own] at none

/-- The pieces without an empty one at the end. -/
def dropEmptyEnd (pieces : List (List Char)) : List (List Char) :=
  if pieces.getLast? = some [] then pieces.dropLast else pieces

theorem dropEmptyEnd_cons (piece next : List Char) (pieces : List (List Char)) :
    dropEmptyEnd (piece :: next :: pieces) = piece :: dropEmptyEnd (next :: pieces) := by
  rw [dropEmptyEnd, dropEmptyEnd, List.getLast?_cons_cons]
  split <;> simp

theorem piecesOf_eq_cons (separator : Char) (chars : List Char) :
    ∃ piece pieces, Text.piecesOf separator chars = piece :: pieces := by
  rw [← List.ne_nil_iff_exists_cons]
  cases chars with
  | nil => simp [Text.piecesOf]
  | cons c rest =>
    rw [Text.piecesOf]
    split
    · simp
    · split <;> simp

/-- Pieces between dots, without an empty last one, are the atoms. -/
theorem dropEmptyEnd_piecesOf (chars : List Char) :
    dropEmptyEnd (Text.piecesOf '.' chars) = charAtoms chars := by
  induction chars with
  | nil => simp [Text.piecesOf, charAtoms, dropEmptyEnd]
  | cons c rest ih =>
    obtain ⟨piece, pieces, cut⟩ := piecesOf_eq_cons '.' rest
    rw [Text.piecesOf, charAtoms, ← ih, cut]
    by_cases dot : c = '.'
    · simp only [dot, if_true, dropEmptyEnd_cons]
    · simp only [dot, if_false]
      cases pieces with
      | nil => cases piece <;> simp [dropEmptyEnd, pushChar]
      | cons next others => simp [dropEmptyEnd_cons, pushChar]

/-- The atoms of a scope are computed on its characters. -/
theorem atomsOf_eq (scope : String) :
    atomsOf scope = (charAtoms scope.toList).map String.ofList := by
  have ends : (Text.pieces '.' scope).getLast? = some "" ↔
      (Text.piecesOf '.' scope.toList).getLast? = some [] := by
    rw [Text.pieces, List.getLast?_map, Option.map_eq_some_iff]
    constructor
    · rintro ⟨piece, last, empty⟩
      rw [last, String.ofList_eq_empty_iff.mp empty]
    · intro last
      exact ⟨[], last, rfl⟩
  rw [← dropEmptyEnd_piecesOf, dropEmptyEnd, atomsOf, apply_ite (List.map String.ofList),
    List.map_dropLast, ← Text.pieces]
  simp only [ends]

theorem charAtoms_eq (scope : String) :
    charAtoms scope.toList = (atomsOf scope).map String.toList := by
  simp [atomsOf_eq]

/-- Scopes are cut at the first dot until nothing remains. -/
theorem charAtoms_cut (chars : List Char) : charAtoms chars =
    match Text.cutChars '.' chars with
    | some (first, rest) => first :: charAtoms rest
    | none => if chars = [] then [] else [chars] := by
  induction chars with
  | nil => simp [charAtoms, Text.cutChars]
  | cons c rest ih =>
    rw [charAtoms, Text.cutChars]
    by_cases dot : c = '.'
    · simp [dot]
    · simp only [dot, if_false, ih]
      cases Text.cutChars '.' rest with
      | none => cases rest <;> simp [pushChar]
      | some parts => simp [pushChar]

theorem atomsOf_cut (scope : String) : atomsOf scope =
    match Text.cut '.' scope with
    | some (first, rest) => first :: atomsOf rest
    | none => if scope = "" then [] else [scope] := by
  rw [atomsOf_eq, charAtoms_cut, Text.cut]
  cases Text.cutChars '.' scope.toList with
  | none => by_cases empty : scope = "" <;> simp [empty]
  | some parts => simp [atomsOf_eq]

/-- A scope whose atoms another has with more after them is a start of the other's text. -/
theorem charAtoms_start {chars other : List Char}
    (more : charAtoms other = charAtoms chars ++ atom :: atoms) : chars <+: other := by
  induction chars generalizing other with
  | nil => exact List.nil_prefix
  | cons c rest ih =>
    cases other with
    | nil => simp [charAtoms] at more
    | cons d others =>
      rw [List.cons_prefix_cons]
      rw [charAtoms, charAtoms] at more
      by_cases dot : c = '.' <;> by_cases also : d = '.'
      · simp only [dot, also, if_true, List.cons_append, List.cons.injEq, true_and] at more
        exact ⟨dot.trans also.symm, ih more⟩
      · simp only [dot, also, if_true, if_false] at more
        exact absurd more (pushChar_ne_nil_cons _ _ _)
      · simp only [dot, also, if_true, if_false] at more
        cases own : charAtoms rest <;> simp [own, pushChar] at more
      · simp only [dot, also, if_false] at more
        cases theirs : charAtoms others with
        | nil => cases own : charAtoms rest <;> simp [theirs, own, pushChar] at more
        | cons first next =>
          cases own : charAtoms rest with
          | nil =>
            simp only [theirs, own, pushChar, List.cons_append, List.cons.injEq] at more
            rw [eq_nil_of_charAtoms own]
            exact ⟨more.1.1.symm, List.nil_prefix⟩
          | cons mine left =>
            simp only [theirs, own, pushChar, List.cons_append, List.cons.injEq] at more
            obtain ⟨⟨same, alike⟩, onward⟩ := more
            refine ⟨same.symm, ih ?_⟩
            rw [theirs, own, alike, onward, List.cons_append]

/-- Of two scopes whose atoms start alike, the one with fewer atoms has the lesser text. -/
theorem lt_of_atoms {scope other : String} (more : atomsOf other = atomsOf scope ++ atom :: atoms) :
    scope < other := by
  have longer : charAtoms other.toList =
      charAtoms scope.toList ++ atom.toList :: atoms.map String.toList := by
    rw [charAtoms_eq, charAtoms_eq, more, List.map_append, List.map_cons]
  have le : scope ≤ other := (charAtoms_start longer).le
  refine String.not_le.mp fun greater => ?_
  rw [String.le_antisymm le greater] at more
  simp at more

/-- A rule does not stand after a rule for more atoms that start with its own. -/
theorem atoms_sorted (rules : List Rule) : (sortRules rules).Pairwise fun earlier later =>
    atomsOf later.scope <+: atomsOf earlier.scope → atomsOf later.scope = atomsOf earlier.scope := by
  refine (scopes_sorted rules).imp fun {earlier later} ordered start => ?_
  obtain ⟨rest, whole⟩ := start
  cases rest with
  | nil => simpa using whole
  | cons atom atoms => exact absurd (lt_of_atoms whole.symm) ordered

theorem atomsOf_eq_nil {scope : String} : atomsOf scope = [] ↔ scope = "" := by
  rw [atomsOf_eq, List.map_eq_nil_iff]
  constructor
  · intro none
    exact String.toList_eq_nil_iff.mp (eq_nil_of_charAtoms none)
  · rintro rfl
    rfl

end Atoms
end ScopeLexer.Theme

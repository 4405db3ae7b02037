import ScopeLexer.Proofs.ThemeOrder

/-!
What putting rules into the tree of scopes does to what can be found there. A node takes over what its
parent holds only when it is made, so a rule that comes to a node with others below it would not reach
them. In sorted order that does not happen: each rule comes to a node that has nothing below it, and
from then on holds for every scope that starts with its atoms.
-/
namespace ScopeLexer.Theme.Trie

/-- The node without those below it. -/
def leaf (trie : Trie) : Trie := .node trie.main trie.qualified []

/-- What holds for some atoms: the deepest node on their way, alone. -/
def held : List String → Trie → Trie
  | [], trie => trie.leaf
  | atom :: atoms, trie =>
    match trie.child? atom with
    | some child => held atoms child
    | none => trie.leaf

/-- The node for some atoms, if it is there, has nothing below it. -/
def Bare : List String → Trie → Prop
  | [], trie => trie.children = []
  | atom :: atoms, trie => ∀ child, trie.child? atom = some child → Bare atoms child

theorem find_eq (atoms : List String) (trie : Trie) : trie.find atoms =
    StyleRule.sortBySpecificity ((held atoms trie).main :: (held atoms trie).qualified) := by
  induction atoms generalizing trie with
  | nil => rfl
  | cons atom atoms ih =>
    rw [find, held]
    cases trie.child? atom with
    | none => rfl
    | some child => exact ih child

section Children

@[simp] theorem children_insertHere (new : StyleRule) (trie : Trie) :
    (trie.insertHere new).children = trie.children := by
  obtain ⟨main, qualified, children⟩ := trie
  rw [insertHere]
  split <;> rfl

theorem leaf_insertHere (new : StyleRule) (trie : Trie) :
    (trie.insertHere new).leaf = trie.leaf.insertHere new := by
  obtain ⟨main, qualified, children⟩ := trie
  simp only [insertHere, leaf, Trie.main, Trie.qualified]
  cases new.parents <;> rfl

theorem lookup_cons_eq (name other : String) (child : Trie) (children : List (String × Trie)) :
    ((other, child) :: children).lookup name =
      if name = other then some child else children.lookup name := by
  rw [List.lookup_cons]
  by_cases same : name = other
  · simp [same]
  · simp [same, beq_false_of_ne]

/-- Changing the child of an atom makes it if it is missing, and leaves the others alone. -/
theorem lookup_updateChild (atom name : String) (fresh : Trie) (change : Trie → Trie)
    (children : List (String × Trie)) :
    (updateChild atom fresh change children).lookup name =
      if name = atom then some (change ((children.lookup atom).getD fresh))
      else children.lookup name := by
  induction children with
  | nil => simp [updateChild, lookup_cons_eq]
  | cons child children ih =>
    obtain ⟨other, child⟩ := child
    by_cases own : other = atom
    · subst other
      by_cases same : name = atom <;> simp [updateChild, lookup_cons_eq, same]
    · by_cases same : name = atom
      · subst name
        simp [updateChild, own, lookup_cons_eq, ih, Ne.symm own]
      · simp [updateChild, own, lookup_cons_eq, ih, same]

/-- What a node holds does not change when a style goes on to a node below it. -/
theorem leaf_insert_cons (new : StyleRule) (atom : String) (atoms : List String) (trie : Trie) :
    (trie.insert new (atom :: atoms)).leaf = trie.leaf := by
  obtain ⟨main, qualified, children⟩ := trie
  rfl

theorem child?_insert_cons (new : StyleRule) (atom name : String) (atoms : List String)
    (trie : Trie) :
    (trie.insert new (atom :: atoms)).child? name =
      if name = atom then some (((trie.child? atom).getD trie.leaf).insert new atoms)
      else trie.child? name := by
  obtain ⟨main, qualified, children⟩ := trie
  exact lookup_updateChild ..

end Children

section Step

theorem bare_leaf (atoms : List String) (trie : Trie) : trie.leaf.Bare atoms := by
  cases atoms with
  | nil => rfl
  | cons atom atoms =>
    intro child found
    cases found

theorem held_leaf (atoms : List String) (trie : Trie) : held atoms trie.leaf = trie.leaf := by
  cases atoms <;> rfl

/-- The node for an atom, or what a new one would be, has nothing below if nothing stands below
the node that it would be. -/
theorem Bare.child {trie : Trie} (bare : Bare (atom :: atoms) trie) :
    ((trie.child? atom).getD trie.leaf).Bare atoms := by
  cases found : trie.child? atom with
  | none => exact bare_leaf atoms trie
  | some child => exact bare child found

theorem held_child (atom : String) (atoms : List String) (trie : Trie) :
    held (atom :: atoms) trie = held atoms ((trie.child? atom).getD trie.leaf) := by
  rw [held]
  cases trie.child? atom with
  | none => exact (held_leaf atoms trie).symm
  | some child => rfl

/-- A style put into a node with nothing below it holds for the scopes that start with its atoms, and
for no others. -/
theorem held_insert {new : StyleRule} {trie : Trie} (bare : Bare atoms trie) (path : List String) :
    held path (trie.insert new atoms) =
      if atoms <+: path then (held path trie).insertHere new else held path trie := by
  induction atoms generalizing trie path with
  | nil =>
    have alone : ∀ atom, (trie.insertHere new).child? atom = none ∧ trie.child? atom = none := by
      intro atom
      simp [child?, show trie.children = [] from bare]
    rw [insert, if_pos List.nil_prefix]
    cases path with
    | nil => exact leaf_insertHere new trie
    | cons atom path => simp only [held, (alone atom).1, (alone atom).2, leaf_insertHere]
  | cons atom atoms ih =>
    cases path with
    | nil =>
      rw [if_neg (by simp)]
      exact leaf_insert_cons new atom atoms trie
    | cons name path =>
      by_cases same : name = atom
      · subst name
        have below := ih bare.child path
        simp only [held_child, child?_insert_cons, if_true, Option.getD_some, below,
          List.cons_prefix_cons, true_and]
      · have apart : ¬ atom :: atoms <+: name :: path := fun start =>
          same (List.cons_prefix_cons.mp start).1.symm
        rw [if_neg apart, held_child, child?_insert_cons, if_neg same, leaf_insert_cons, held_child]

/-- A node keeps nothing below it when a style is put in that does not go below it. -/
theorem Bare.insert {trie : Trie} (bare : Bare path trie) (apart : path <+: atoms → path = atoms) :
    (trie.insert new atoms).Bare path := by
  induction path generalizing trie atoms with
  | nil =>
    cases apart List.nil_prefix
    rw [Trie.insert, Bare, children_insertHere]
    exact bare
  | cons name path ih =>
    intro child found
    cases atoms with
    | nil =>
      rw [Trie.insert, child?, children_insertHere] at found
      exact bare child found
    | cons atom atoms =>
      rw [child?_insert_cons] at found
      by_cases same : name = atom
      · subst name
        rw [if_pos rfl, Option.some.injEq] at found
        subst found
        refine ih bare.child fun start => ?_
        exact (List.cons.inj (apart (List.cons_prefix_cons.mpr ⟨rfl, start⟩))).2
      · rw [if_neg same] at found
        exact bare child found

end Step

section Run

/-- Puts rules in, each in the style that it is given. -/
def insertAll (style : Rule → StyleRule) (rules : List Rule) (trie : Trie) : Trie :=
  rules.foldl (fun trie rule => trie.insert (style rule) (atomsOf rule.scope)) trie

/-- The styles of rules, one after the other, in a node. -/
def insertAllHere (style : Rule → StyleRule) (rules : List Rule) (trie : Trie) : Trie :=
  rules.foldl (fun trie rule => trie.insertHere (style rule)) trie

/-- After rules in sorted order, what holds for a scope is what the rules for the scopes that it starts
with make of it, as if there were no others. -/
theorem held_insertAll (style : Rule → StyleRule) {rules : List Rule} {trie : Trie}
    (sorted : rules.Pairwise fun earlier later =>
      atomsOf later.scope <+: atomsOf earlier.scope → atomsOf later.scope = atomsOf earlier.scope)
    (bare : ∀ rule ∈ rules, trie.Bare (atomsOf rule.scope)) (path : List String) :
    held path (trie.insertAll style rules) =
      (held path trie).insertAllHere style (rules.filter fun rule => atomsOf rule.scope <+: path) := by
  induction rules generalizing trie with
  | nil => rfl
  | cons rule rules ih =>
    obtain ⟨first, rest⟩ := List.pairwise_cons.mp sorted
    have still : ∀ later ∈ rules, (trie.insert (style rule) (atomsOf rule.scope)).Bare
        (atomsOf later.scope) := by
      intro later member
      exact (bare later (List.mem_cons_of_mem rule member)).insert (first later member)
    have here : held path (trie.insert (style rule) (atomsOf rule.scope)) = _ :=
      held_insert (bare rule List.mem_cons_self) path
    have onward := ih rest still
    rw [here] at onward
    rw [insertAll, List.foldl_cons, ← insertAll, onward]
    by_cases start : atomsOf rule.scope <+: path <;> simp [start, insertAllHere]

end Run
end ScopeLexer.Theme.Trie

import ScopeLexer.Theme.Rule

/-!
The rules of a theme by the atoms of their scopes. A node holds the style of its scope, with what it
inherits from the scope without the last atom, and the styles that hold only inside certain parents. A
node takes over what its parent holds when it is made; as rules are put in in sorted order, the parent
is complete by then.
-/
namespace ScopeLexer.Theme

open Style

/-- A style with what it depends on. Colours are numbers, 0 if not set. -/
structure StyleRule where
  /-- The number of atoms of the scope that set the style. -/
  depth : Nat
  parents : Option (List Parent)
  fontStyle : Option FontStyle
  foreground : Nat
  background : Nat
  deriving Repr, DecidableEq, Inhabited

namespace StyleRule

def unset : StyleRule := ⟨0, none, none, 0, 0⟩

/-- The style with what another sets in its place. -/
def overwrite (held new : StyleRule) : StyleRule where
  depth := max held.depth new.depth
  parents := held.parents
  fontStyle := new.fontStyle.orElse fun _ => held.fontStyle
  foreground := if new.foreground ≠ 0 then new.foreground else held.foreground
  background := if new.background ≠ 0 then new.background else held.background

/-- The style with what it leaves open taken from another. -/
def inherit (new main : StyleRule) : StyleRule where
  depth := new.depth
  parents := new.parents
  fontStyle := new.fontStyle.orElse fun _ => main.fontStyle
  foreground := if new.foreground = 0 then main.foreground else new.foreground
  background := if new.background = 0 then main.background else new.background

/-- The order of parents by the length of their scopes, the longer first; of two lists that agree, the
one with more parents comes first. -/
def compareLengths : List Parent → List Parent → Ordering
  | left :: lefts, right :: rights =>
    (compare right.scope.text.utf8ByteSize left.scope.text.utf8ByteSize).then
      (compareLengths lefts rights)
  | lefts, rights => compare rights.length lefts.length

/-- The order in which styles are tried: deeper scopes first, then longer parents. -/
def compareSpecificity (left right : StyleRule) : Ordering :=
  (compare right.depth left.depth).then
    (compareLengths (left.parents.getD []) (right.parents.getD []))

/-- Styles in the order in which they are tried. -/
def sortBySpecificity (rules : List StyleRule) : List StyleRule :=
  rules.mergeSort fun left right => (left.compareSpecificity right).isLE

end StyleRule

/-- A node of the tree of scopes. -/
inductive Trie where
  | node (main : StyleRule) (qualified : List StyleRule) (children : List (String × Trie))
  deriving Inhabited

/-- The atoms that lead to the node of a scope. An empty atom at the end does not count. -/
def atomsOf (scope : String) : List String :=
  let atoms := Text.pieces '.' scope
  if atoms.getLast? = some "" then atoms.dropLast else atoms

namespace Trie

/-- The style of the node's scope without regard to parents. -/
def main : Trie → StyleRule
  | .node main _ _ => main

/-- The styles that hold inside certain parents. -/
def qualified : Trie → List StyleRule
  | .node _ qualified _ => qualified

/-- The nodes of the scopes with one atom more. -/
def children : Trie → List (String × Trie)
  | .node _ _ children => children

def empty : Trie := .node .unset [] []

/-- The node for an atom below this one. -/
def child? (trie : Trie) (atom : String) : Option Trie := trie.children.lookup atom

/-- Puts a style with parents among those of a node: it overwrites the one with the same parents, or
is new and inherits what it leaves open. -/
def insertQualified (main new : StyleRule) : List StyleRule → List StyleRule
  | [] => [new.inherit main]
  | held :: rest =>
    if compareParents held.parents new.parents = .eq then held.overwrite new :: rest
    else held :: insertQualified main new rest

/-- Puts a style into a node. -/
def insertHere (new : StyleRule) : Trie → Trie
  | .node main qualified children =>
    match new.parents with
    | none => .node (main.overwrite new) qualified children
    | some _ => .node main (insertQualified main new qualified) children

/-- Changes the node for an atom, which is made by `fresh` if it is not there. -/
def updateChild (atom : String) (fresh : Trie) (change : Trie → Trie) :
    List (String × Trie) → List (String × Trie)
  | [] => [(atom, change fresh)]
  | (name, child) :: rest =>
    if name = atom then (name, change child) :: rest
    else (name, child) :: updateChild atom fresh change rest

/-- Puts a style into the node for some atoms. The nodes on the way that are not there are made. -/
def insert (new : StyleRule) : List String → Trie → Trie
  | [], trie => trie.insertHere new
  | atom :: atoms, .node main qualified children =>
    .node main qualified
      (updateChild atom (.node main qualified []) (insert new atoms) children)

/-- The styles of the deepest node for some atoms, in the order in which they are tried. -/
def find : List String → Trie → List StyleRule
  | [], trie => StyleRule.sortBySpecificity (trie.main :: trie.qualified)
  | atom :: atoms, trie =>
    match trie.child? atom with
    | some child => find atoms child
    | none => StyleRule.sortBySpecificity (trie.main :: trie.qualified)

end Trie
end ScopeLexer.Theme

import ScopeLexer.Proofs.PackedFields
import ScopeLexer.Proofs.ReachableStates

/-!
What packing adds to the metadata of a scope path. The names of the scopes are looked at only where an
override may hold, or where the bracket selectors do not give the same answer for all paths. Where they
are not looked at, looking would not have changed the outcome: it is always the metadata of the path with
the kind of the last override that holds, and with the mark for balanced brackets where the selectors
say so.

The mark is added and never taken away, so it says what the selectors say only if it was not on the path
before. It never is: the metadata of a grammar's own scope does not have it, and no scope brings it.
-/
namespace ScopeLexer

open Regex Style

namespace Line

namespace Brackets

variable {brackets : Brackets}

theorem hold_of_isAlways (always : brackets.isAlways = true) (names : List String) :
    brackets.hold names = true := by
  obtain ⟨everywhere, unbalanced⟩ : brackets.everywhere = true ∧ brackets.unbalanced = [] := by
    simpa [isAlways] using always
  simp [hold, everywhere, unbalanced]

theorem hold_of_isNever (never : brackets.isNever = true) (names : List String) :
    brackets.hold names = false := by
  obtain ⟨balanced, nowhere⟩ : brackets.balanced = [] ∧ brackets.everywhere = false := by
    simpa [isNever] using never
  simp [hold, balanced, nowhere]

end Brackets

namespace Packing

variable (packing : Packing) (path : ScopePath)

/-- The last override that holds inside some scopes. -/
def lastOverride (names : List String) : Option TypeOverride :=
  (packing.overrides.filter (·.matcher.holds names)).getLast?

/-- Whether the names are looked at or not, the selectors are as good as asked. -/
theorem isBalanced_eq : packing.isBalanced path = packing.brackets.any (·.hold path.names) := by
  unfold isBalanced
  split
  · rfl
  next spared =>
    cases given : packing.brackets with
    | none => rfl
    | some brackets =>
      have sure : brackets.isAlways = false → brackets.isNever = true := by
        simp only [needsNames, given, Option.any_some] at spared
        simp_all
      rw [Option.any_some, Option.any_some]
      cases always : brackets.isAlways with
      | true => exact (Brackets.hold_of_isAlways always _).symm
      | false => exact (Brackets.hold_of_isNever (sure always) _).symm

/-- Of the overrides that hold, only the last shows. -/
theorem applyOverrides_eq (names : List String) (data : Metadata) :
    packing.applyOverrides names data =
      data.set { tokenType := (packing.lastOverride names).map (·.tokenType) } := by
  unfold applyOverrides lastOverride
  induction packing.overrides using List.reverseRecOn with
  | nil => exact data.set_nothing.symm
  | append_singleton overrides last ih =>
    rw [List.foldl_append, ih, List.foldl_cons, List.foldl_nil, List.filter_append]
    by_cases holds : last.matcher.holds names
    · have kept : [last].filter (·.matcher.holds names) = [last] := List.filter_cons_of_pos holds
      rw [if_pos holds, kept, List.getLast?_concat, Metadata.set_set data (by simp)]
      rfl
    · have dropped : [last].filter (·.matcher.holds names) = [] := List.filter_cons_of_neg holds
      rw [if_neg holds, dropped, List.append_nil]

/-- The metadata of a token, with nothing left out. -/
theorem metadata_eq : packing.metadata path = path.metadata.set {
    tokenType := (packing.lastOverride path.names).map (·.tokenType)
    balanced := if packing.brackets.any (·.hold path.names) then some true else none } := by
  have overridden : (if packing.needsNames then packing.applyOverrides path.names path.metadata
      else path.metadata) =
        path.metadata.set { tokenType := (packing.lastOverride path.names).map (·.tokenType) } := by
    split
    · exact packing.applyOverrides_eq _ _
    next spared =>
      have none : packing.overrides = [] := by simp_all [needsNames]
      simp only [lastOverride, none]
      exact path.metadata.set_nothing.symm
  unfold metadata
  simp only [overridden, isBalanced_eq]
  split
  · rw [Metadata.set_set _ (by simp)]
    simp [Update.andThen, Metadata.chosenColor]
  · rfl

end Packing
end Line

namespace ScopePath

/-- Neither the path nor a path around it is marked as one where brackets are balanced. -/
def Unmarked (path : ScopePath) : Prop :=
  ∀ outer : ScopePath, outer.Within path → outer.metadata.balanced = false

variable {path : ScopePath}

theorem Unmarked.pushOne (unmarked : path.Unmarked) (styling : Styling) (name : String) :
    (path.pushOne styling name).Unmarked := by
  intro outer within
  cases within with
  | same => exact (Metadata.balanced_set ..).trans (unmarked path .same)
  | inside within => exact unmarked outer within

theorem Unmarked.push (unmarked : path.Unmarked) (styling : Styling) (names : Option String) :
    (path.push styling names).Unmarked := by
  cases names with
  | none => exact unmarked
  | some names =>
    exact List.foldlRecOn _ _ unmarked fun path unmarked name _ => unmarked.pushOne styling name

theorem unmarked_ofGrammar (styling : Styling) (scopeName : String) :
    (ofGrammar styling scopeName).Unmarked := by
  intro outer within
  cases within with
  | same =>
    have base : styling.base.balanced = false := Metadata.balanced_set ..
    exact (Metadata.balanced_set ..).trans base

end ScopePath

/-- The scope paths that a scanned line shows: those of its pieces, and those of the frames of the state
that it leaves. -/
def ScannedLine.scopePaths (scanned : ScannedLine) : List ScopePath :=
  scanned.pieces.items.toList.map (·.scopes) ++
    scanned.state.frames.flatMap fun frame => [frame.nameScopes, frame.contentScopes]

/-- The states that a line can be tokenized from: none, the state that tokenizing a line from such a state
leaves, with any grammar, engine, theme and clock, and such a state without its top rule. -/
inductive Stack.Produced : Option Stack → Prop where
  | start : Produced none
  | line (produced : Produced state) (tokenizer : Tokenizer) (engine : Engine) (theme : Theme)
    (text : String) (clock : Clock) (store : Pattern.Store) :
    Produced (some (tokenizer.scanLine engine theme state text clock store).1.state)
  | popped (produced : Produced (some stack)) (pops : stack.pop? = some below) :
    Produced (some below)

theorem Stack.LiesIn.forgetLine {Inside : ScopePath → Prop} {stack : Stack}
    (lies : stack.LiesIn Inside) : stack.forgetLine.LiesIn Inside := by
  intro frame member
  obtain ⟨before, among, rfl⟩ := List.mem_map.mp (show frame ∈ stack.frames.map forgetFrame from member)
  exact lies before among

section Lines

variable {state : Option Stack} {Inside : ScopePath → Prop} (tokenizer : Tokenizer) (engine : Engine)
  (theme : Theme) (text : String) (clock : Clock) (store : Pattern.Store)

/-- A property of scopes that outlasts more scopes, and that the frames before a line have, the frames after
the line and the pieces of the line have. -/
theorem Tokenizer.scanLine_inside
    (push : ∀ styling path names, Inside path → Inside (path.push styling names))
    (lies : (tokenizer.startStack theme state).LiesIn Inside) :
    let scanned := (tokenizer.scanLine engine theme state text clock store).1
    scanned.state.LiesIn Inside ∧ ∀ path ∈ scanned.scopePaths, Inside path := by
  intro scanned
  let scanner := tokenizer.scannerWith theme (Line.rememberingFinder engine tokenizer.grammar)
  have invariant := Line.pieces_invariant scanner push
  have left : scanned.state.LiesIn Inside :=
    (invariant.liesIn.scan lies tokenizer.depth clock _ _ _).forgetLine
  have pieces : ∀ piece ∈ scanned.pieces.items.toList, Inside piece.scopes :=
    invariant.scan lies (by simp) tokenizer.depth clock _ _
  refine ⟨left, fun path member => ?_⟩
  rcases List.mem_append.mp member with ofPiece | ofFrame
  · obtain ⟨piece, among, rfl⟩ := List.mem_map.mp ofPiece
    exact pieces piece among
  · obtain ⟨frame, among, own⟩ := List.mem_flatMap.mp ofFrame
    obtain ⟨name, content⟩ := left frame among
    rcases List.mem_pair.mp own with rfl | rfl
    · exact name
    · exact content

/-- A property of all first scopes and of the scopes of the state given is one of the scopes that the scan
starts with. -/
theorem Tokenizer.startStack_inside
    (initial : Inside (.ofGrammar (tokenizer.styling theme) tokenizer.grammar.scopeName))
    (given : ∀ stack ∈ state, stack.LiesIn Inside) :
    (tokenizer.startStack theme state).LiesIn Inside := by
  cases state with
  | none =>
    intro frame member
    rw [List.mem_singleton.mp member]
    exact ⟨initial, initial⟩
  | some stack => exact (given stack rfl).forgetLine

/-- The scopes of the states that a line can be tokenized from are unmarked. -/
theorem Stack.Produced.unmarked (produced : Produced state) :
    ∀ stack ∈ state, stack.LiesIn ScopePath.Unmarked := by
  induction produced with
  | start => simp
  | line produced tokenizer engine theme text clock store ih =>
    rintro _ ⟨⟩
    have starts := tokenizer.startStack_inside theme (ScopePath.unmarked_ofGrammar _ _) ih
    exact (tokenizer.scanLine_inside engine theme text clock store
      (fun styling _ names unmarked => unmarked.push styling names) starts).1
  | @popped stack below produced pops ih =>
    rintro _ ⟨⟩
    obtain ⟨top, rest⟩ := stack
    cases rest with
    | nil => cases pops
    | cons frame rest =>
      cases pops
      exact fun frame member => ih _ rfl frame (List.mem_cons_of_mem _ member)

/-- The packed metadata of every scope path that a line shows, and of every path around one. Whatever was
tokenized before, with whatever grammars and themes, and whatever the overrides and the bracket selectors
are: brackets are balanced exactly where the selectors, asked with the names of the path, say so; the kind
is that of the last override that holds inside the path, or that of the path if none does; and all else is
as the path has it. -/
theorem produced_paths_packed (produced : Stack.Produced state) {path outer : ScopePath}
    (shown : path ∈ (tokenizer.scanLine engine theme state text clock store).1.scopePaths)
    (around : outer.Within path) (overrides : List Line.TypeOverride)
    (balanced unbalanced : List String) :
    let brackets := Line.Brackets.ofSelectors balanced unbalanced
    let data := Line.Packing.metadata ⟨overrides, some brackets⟩ outer
    let held := overrides.filter (·.matcher.holds outer.names)
    data.balanced = brackets.hold outer.names ∧
      data.tokenType = (held.getLast?.map (·.tokenType)).getD outer.metadata.tokenType ∧
      data.language = outer.metadata.language ∧ data.fontStyle = outer.metadata.fontStyle ∧
      data.foreground = outer.metadata.foreground ∧ data.background = outer.metadata.background := by
  intro brackets data held
  have starts := tokenizer.startStack_inside theme (ScopePath.unmarked_ofGrammar _ _) produced.unmarked
  have unmarked : outer.metadata.balanced = false :=
    (tokenizer.scanLine_inside engine theme text clock store
      (fun styling _ names unmarked => unmarked.push styling names) starts).2 path shown outer around
  have added : data = outer.metadata.set {
      tokenType := held.getLast?.map (·.tokenType)
      balanced := if brackets.hold outer.names then some true else none } :=
    Line.Packing.metadata_eq ⟨overrides, some brackets⟩ outer
  rw [added]
  refine ⟨?_, Metadata.tokenType_set .., ?_, ?_, ?_, ?_⟩
  · rw [Metadata.balanced_set, unmarked]
    cases brackets.hold outer.names <;> rfl
  · exact Metadata.language_set ..
  · exact Metadata.fontStyle_set ..
  · exact Metadata.foreground_set_fits (by simp) _
  · exact Metadata.background_set ..

end Lines

/-- A letter on a second line, where two of three overrides hold and brackets do not count, though they
count everywhere else. -/
theorem produced_paths_packed_letter :
    let state := firstState Sample.tokenizer Sample.store "x"
    let scanned := (Sample.tokenizer.scanLine backtracking .plain (some state) "z" (fun _ => false)
      Sample.store).1
    let styling := Sample.tokenizer.styling .plain
    let path := (ScopePath.ofGrammar styling "source.x").push styling (some "first")
    let overrides : List Line.TypeOverride :=
      [⟨.path [.ofText "source"], .string⟩, ⟨.path [.ofText "first"], .comment⟩,
        ⟨.path [.ofText "other"], .regex⟩]
    let brackets := Line.Brackets.ofSelectors ["*"] ["first"]
    let data := Line.Packing.metadata ⟨overrides, some brackets⟩ path
    let held := overrides.filter (·.matcher.holds path.names)
    Stack.Produced (some state) ∧ path ∈ scanned.scopePaths ∧ path.Within path ∧
      data.balanced = brackets.hold path.names ∧
      data.tokenType = (held.getLast?.map (·.tokenType)).getD path.metadata.tokenType ∧
      data.language = path.metadata.language ∧ data.fontStyle = path.metadata.fontStyle ∧
      data.foreground = path.metadata.foreground ∧ data.background = path.metadata.background := by
  intro state scanned styling path overrides brackets data held
  have produced : Stack.Produced (some state) := .line .start ..
  have shown : path ∈ scanned.scopePaths := by decide +kernel
  exact ⟨produced, shown, .same, produced_paths_packed Sample.tokenizer backtracking .plain "z"
    (fun _ => false) Sample.store produced shown .same overrides ["*"] ["first"]⟩

end ScopeLexer

import ScopeLexer.Proofs.GrammarUse

/-! When a line is tokenized alike from states that compare equal. Equality looks
at the rules and ends of all frames and at the scopes at the top. The scopes of
a frame go on inside those of the frame below it, so the scopes at the top hold
all others, and how many there are of each is enough to tell them. Bytes of a
line are forgotten at its end. What is left is whether the start at the top took
the end of its line.

Neither this nor the numbers of scopes follow from equality. -/
namespace ScopeLexer

open Grammar Pattern Regex

namespace ScopePath

/-- Paths that go on inside a path, or are the path itself. -/
inductive Within (outer : ScopePath) : ScopePath → Prop where
  | same : Within outer outer
  | inside (within : Within outer path) (scope : Scope) (metadata : Style.Metadata) :
    Within outer (.inside path scope metadata)

def size (path : ScopePath) : Nat := path.entries.length

variable {left middle right path : ScopePath}

theorem Within.trans (first : left.Within middle) (second : middle.Within right) :
    left.Within right := by
  induction second with
  | same => exact first
  | inside within scope metadata ih => exact .inside ih scope metadata

theorem Within.size_le (within : left.Within right) : left.size ≤ right.size := by
  induction within with
  | same => exact Nat.le_refl _
  | inside within scope metadata ih => exact Nat.le_succ_of_le ih

/-- Of the paths inside of which a path goes on, there is one of each size. -/
theorem Within.eq_of_size (first : left.Within path) (second : right.Within path)
    (same : left.size = right.size) : left = right := by
  induction first with
  | same =>
    cases second with
    | same => rfl
    | inside within scope metadata =>
      have smaller := within.size_le
      simp only [size, entries, List.length_cons] at same smaller
      omega
  | inside first scope metadata ih =>
    cases second with
    | same =>
      have smaller := first.size_le
      simp only [size, entries, List.length_cons] at same smaller
      omega
    | inside second => exact ih second

/-- The path with more names pushed goes on inside the path. -/
theorem within_push (styling : Styling) (path : ScopePath) (names : Option String) :
    path.Within (path.push styling names) := by
  cases names with
  | none => exact .same
  | some names =>
    have all (pieces : List String) (path : ScopePath) :
        path.Within (pieces.foldl (pushOne styling) path) := by
      induction pieces generalizing path with
      | nil => exact .same
      | cons piece pieces ih =>
        exact Within.trans (.inside .same _ _) (ih (path.pushOne styling piece))
    exact all _ path

end ScopePath

namespace Stack

/-- The scopes of frames go on inside one another. -/
structure Nested (stack : Stack) : Prop where
  own : ∀ frame ∈ stack.frames, frame.nameScopes.Within frame.contentScopes
  outer : stack.frames.Pairwise fun upper lower =>
    lower.contentScopes.Within upper.nameScopes

variable {stack left right : Stack}

/-- The scopes at the top hold those of every frame. -/
theorem Nested.within_top (nested : stack.Nested) (member : frame ∈ stack.frames) :
    frame.nameScopes.Within stack.contentScopes ∧
      frame.contentScopes.Within stack.contentScopes := by
  have top := nested.own stack.top List.mem_cons_self
  have own := nested.own frame member
  rcases List.mem_cons.mp member with rfl | below
  · exact ⟨top, .same⟩
  · have outer := List.rel_of_pairwise_cons nested.outer below
    exact ⟨own.trans (outer.trans top), outer.trans top⟩

theorem Nested.push (nested : stack.Nested) {frame : Frame}
    (own : frame.nameScopes.Within frame.contentScopes)
    (outer : stack.contentScopes.Within frame.nameScopes) : Nested ⟨frame, stack.frames⟩ where
  own other member := by
    rcases List.mem_cons.mp member with rfl | below
    · exact own
    · exact nested.own other below
  outer := List.pairwise_cons.mpr
    ⟨fun lower below => (nested.within_top below).2.trans outer, nested.outer⟩

theorem Nested.closing (nested : stack.Nested) : stack.closing.Nested where
  own frame member := by
    rcases List.mem_cons.mp member with rfl | below
    · exact .same
    · exact nested.own frame (List.mem_cons_of_mem _ below)
  outer := List.pairwise_cons.mpr (List.pairwise_cons.mp nested.outer)

theorem Nested.pop (nested : stack.Nested) : stack.pop.Nested := by
  obtain ⟨top, rest⟩ := stack
  cases rest with
  | nil => exact nested
  | cons below rest =>
    exact ⟨fun frame member => nested.own frame (List.mem_cons_of_mem _ member),
      (List.pairwise_cons.mp nested.outer).2⟩

theorem Nested.forgetLine (nested : stack.Nested) : stack.forgetLine.Nested where
  own frame member := by
    have member : frame ∈ stack.frames.map forgetFrame := member
    obtain ⟨before, held, rfl⟩ := List.mem_map.mp member
    exact nested.own before held
  outer := by
    have frames : stack.forgetLine.frames = stack.frames.map forgetFrame := rfl
    rw [frames, List.pairwise_map]
    exact nested.outer

end Stack

namespace Line

variable {σ : Type}

theorem nested_enteredStack {cursor : Cursor} (nested : cursor.stack.Nested) (scanner : Scanner σ)
    (line : SourceLine) (found : Match) (id : RuleId) (rule : Spanning) :
    (enteredStack scanner line cursor found id rule).Nested := by
  unfold enteredStack
  simp only
  split
  · exact nested.push (ScopePath.within_push ..) (ScopePath.within_push ..)
  · exact nested.push (ScopePath.within_push ..) (ScopePath.within_push ..)

/-- Every step keeps the scopes of frames inside one another. -/
theorem nested_invariant (scanner : Scanner σ) : StackInvariant scanner Stack.Nested where
  enter line _ found id rule nested _ := nested_enteredStack nested scanner line found id rule
  close _ nested := nested.closing
  pop _ nested := nested.pop

end Line

/-- How many scopes a frame has, for its start and end and for what lies between. -/
def Frame.scopeSizes (frame : Frame) : Nat × Nat :=
  (frame.nameScopes.size, frame.contentScopes.size)

/-- A frame between lines, whose scopes are some of those of a path. -/
structure Frame.RestsIn (path : ScopePath) (frame : Frame) : Prop where
  name : frame.nameScopes.Within path
  content : frame.contentScopes.Within path
  enteredAt : frame.enteredAt = none
  anchor : frame.anchor = none

namespace Stack

def scopeSizes (stack : Stack) : List (Nat × Nat) := stack.frames.map Frame.scopeSizes

variable {path : ScopePath} {left right : Stack}

/-- Between lines, a frame of some shape is known by the numbers of its scopes, but
for what its start took. -/
theorem compared_eq_of_sameShape {left right : Frame} (shape : sameShape left right = true)
    (sizes : left.scopeSizes = right.scopeSizes) (first : left.RestsIn path)
    (second : right.RestsIn path) : left.compared false = right.compared false := by
  obtain ⟨digest, depth, rule, ending⟩ := sameShape_iff.mp shape
  obtain ⟨nameSize, contentSize⟩ := Prod.mk.inj sizes
  have name := first.name.eq_of_size second.name nameSize
  have content := first.content.eq_of_size second.content contentSize
  simp only [Frame.compared, digest, depth, rule, ending, name, content, first.enteredAt,
    second.enteredAt, first.anchor, second.anchor, Bool.false_and]

/-- Frames of the same shapes and sizes, on one path, are compared equal: a path of a size is no
other. -/
theorem compared_eq_of_sameShapes (lefts rights : List Frame)
    (shapes : sameShapes lefts rights = true)
    (sizes : lefts.map Frame.scopeSizes = rights.map Frame.scopeSizes)
    (first : ∀ frame ∈ lefts, frame.RestsIn path) (second : ∀ frame ∈ rights, frame.RestsIn path) :
    lefts.map (Frame.compared false) = rights.map (Frame.compared false) := by
  induction lefts generalizing rights with
  | nil =>
    cases rights with
    | nil => rfl
    | cons right rights => cases shapes
  | cons left lefts ih =>
    cases rights with
    | nil => cases shapes
    | cons right rights =>
      simp only [sameShapes, Bool.and_eq_true] at shapes
      obtain ⟨shape, shapes⟩ := shapes
      obtain ⟨size, sizes⟩ := List.cons.inj sizes
      rw [List.map_cons, List.map_cons]
      congr 1
      · exact compared_eq_of_sameShape shape size (first left List.mem_cons_self)
          (second right List.mem_cons_self)
      · exact ih rights shapes sizes (fun frame member => first frame (List.mem_cons_of_mem _ member))
          fun frame member => second frame (List.mem_cons_of_mem _ member)

/-- The frames of a stack between lines rest in the scopes at the top. -/
theorem Nested.restsIn {stack : Stack} (nested : stack.Nested)
    (forgotten : stack.forgetLine = stack) :
    ∀ frame ∈ stack.frames, frame.RestsIn stack.contentScopes := by
  intro frame member
  obtain ⟨name, content⟩ := nested.within_top member
  obtain ⟨enteredAt, anchor⟩ := of_forgetLine forgotten member
  exact ⟨name, content, enteredAt, anchor⟩

/-- Stacks between lines that compare equal are alike, if each frame has as many
scopes on either. -/
theorem alike_of_equivalent (equivalent : left.equivalent right = true)
    (sizes : left.scopeSizes = right.scopeSizes) (nestedLeft : left.Nested)
    (nestedRight : right.Nested) (forgottenLeft : left.forgetLine = left)
    (forgottenRight : right.forgetLine = right) : left.Alike false right := by
  simp only [Stack.equivalent, structurallyEqual, Bool.and_eq_true, beq_iff_eq] at equivalent
  obtain ⟨shapes, content⟩ := equivalent
  have second := nestedRight.restsIn forgottenRight
  rw [← content] at second
  have frames := compared_eq_of_sameShapes left.frames right.frames shapes sizes
    (nestedLeft.restsIn forgottenLeft) second
  obtain ⟨top, rest⟩ := List.cons.inj frames
  rw [Alike, compared, compared, top, rest]

/-- Stacks that are alike compare equal. -/
theorem Alike.equivalent (alike : left.Alike false right) : left.equivalent right = true := by
  have shapes (lefts rights : List Frame)
      (same : lefts.map (Frame.compared false) = rights.map (Frame.compared false)) :
      sameShapes lefts rights = true := by
    induction lefts generalizing rights with
    | nil =>
      cases rights with
      | nil => rfl
      | cons right rights => cases same
    | cons left lefts ih =>
      cases rights with
      | nil => cases same
      | cons right rights =>
        obtain ⟨first, others⟩ := List.cons.inj same
        simp only [Frame.compared, Frame.mk.injEq] at first
        rw [sameShapes, ih rights others, Bool.and_true, sameShape_iff]
        obtain ⟨depth, rule, _, _, _, ending, _, _, digest⟩ := first
        exact ⟨digest, depth, rule, ending⟩
  rw [Stack.equivalent, structurallyEqual, shapes _ _ alike.frames, alike.contentScopes,
    Bool.true_and, beq_self_eq_true]

end Stack

namespace Tokenizer.Reached

variable {tokenizer : Tokenizer} {engine : Engine} {themes : Theme → Prop} {state : Stack}

/-- What a line leaves has forgotten the line. -/
theorem forgetLine_eq (reached : Reached tokenizer engine themes (some state)) :
    state.forgetLine = state := by
  cases reached with
  | line allowed used reached text clock => exact Stack.forgetLine_forgetLine _

theorem nested (reached : Reached tokenizer engine themes (some state)) : state.Nested := by
  have root (theme : Theme) : (tokenizer.initialState theme).Nested := by
    refine ⟨fun frame member => ?_, List.pairwise_singleton _ _⟩
    rw [List.mem_singleton.mp member]
    exact .same
  have nested : (tokenizer.startStack .plain (some state)).Nested :=
    reached.holds (fun theme => Line.nested_invariant _) root (fun stack nested => nested.forgetLine)
      .plain
  rw [← reached.forgetLine_eq]
  exact nested

end Tokenizer.Reached

/-- Lines are tokenized alike from states that compare equal, if the starts at the
top agree in whether they took the end of their line and each frame has as many
scopes on either: the tokens are the same, and the states they leave compare
equal. It does not matter which lines have led to the states, nor what the stores
of the grammar have seen. -/
theorem equivalent_states_scan_alike (tokenizer : Tokenizer) {engine : Engine}
    {first second : Store} (usedFirst : InUse engine tokenizer.grammar first)
    (usedSecond : InUse engine tokenizer.grammar second) {left right : Stack}
    (reachedLeft : tokenizer.Reached engine themes (some left))
    (reachedRight : tokenizer.Reached engine themes (some right))
    (equivalent : left.equivalent right = true)
    (lineEnd : left.top.tookLineEnd = right.top.tookLineEnd)
    (sizes : left.scopeSizes = right.scopeSizes) (theme : Theme) (text : String) (clock : Clock) :
    let fromLeft := (tokenizer.scanLine engine theme (some left) text clock first).1
    let fromRight := (tokenizer.scanLine engine theme (some right) text clock second).1
    fromLeft.tokens = fromRight.tokens ∧ fromLeft.packedTokens = fromRight.packedTokens ∧
      fromLeft.stoppedEarly = fromRight.stoppedEarly ∧
      fromLeft.state.equivalent fromRight.state = true := by
  have alike := Stack.alike_of_equivalent equivalent sizes reachedLeft.nested reachedRight.nested
    reachedLeft.forgetLine_eq reachedRight.forgetLine_eq
  have starts : (tokenizer.startStack theme (some left)).Alike false
      (tokenizer.startStack theme (some right)) := alike.forgetLine
  obtain ⟨ends, stopped, work⟩ :=
    tokenizer.outcome_twins usedFirst.serves usedSecond.serves starts lineEnd rfl text clock
  have leaves := ends.forgetLine
  simp only [Tokenizer.scanLine_eq, ScannedLine.tokens, ScannedLine.packedTokens, work.pieces,
    leaves.contentScopes, stopped, leaves.equivalent, and_self]

/-- The state that a first line leaves, with the engine that backtracks. -/
def firstState (tokenizer : Tokenizer) (store : Store) (text : String) : Stack :=
  (tokenizer.scanLine backtracking .plain none text (fun _ => false) store).1.state

/-- The tokens of the line after a first line, with the engine that backtracks. -/
def tokensAfter (tokenizer : Tokenizer) (store : Store) (first text : String) : List Line.Token :=
  (tokenizer.scanLine backtracking .plain (some (firstState tokenizer store first)) text
    (fun _ => false) store).1.tokens

theorem reached_firstState {tokenizer : Tokenizer} {store : Store}
    (used : InUse backtracking tokenizer.grammar store) (text : String) :
    tokenizer.Reached backtracking (· = .plain) (some (firstState tokenizer store text)) := by
  refine .line ?_ used .start text _
  rfl

/-- A start takes the end of its line, after nothing and after another character. -/
theorem equivalent_states_scan_alike_region :
    let state := firstState Sample.tokenizer Sample.store
    (state "x").equivalent (state "ax") = true ∧
      (state "x").top.tookLineEnd = (state "ax").top.tookLineEnd ∧
      (state "x").scopeSizes = (state "ax").scopeSizes ∧
      tokensAfter Sample.tokenizer Sample.store "x" "zy" =
        tokensAfter Sample.tokenizer Sample.store "ax" "zy" := by
  intro state
  have equivalent : (state "x").equivalent (state "ax") = true := by decide +kernel
  have lineEnd : (state "x").top.tookLineEnd = (state "ax").top.tookLineEnd := by decide +kernel
  have sizes : (state "x").scopeSizes = (state "ax").scopeSizes := by decide +kernel
  have alike := equivalent_states_scan_alike Sample.tokenizer Sample.inUse Sample.inUse
    (reached_firstState Sample.inUse "x") (reached_firstState Sample.inUse "ax") equivalent lineEnd
    sizes .plain "zy" (fun _ => false)
  exact ⟨equivalent, lineEnd, sizes, alike.1⟩

namespace Named

/-- A grammar with a region whose scopes are words of its start. -/
def source : GrammarSource where
  scopeName := "source.x"
  patterns := [0]
  rules := #[{
    beginPattern := some "<(.*);(.*)>", endPattern := some "y"
    name := some "$1", contentName := some "$2" }]

@[irreducible]
def compilation : Compilation :=
  (compile "source.x" ⟨[("source.x", source)]⟩ [] backtracking {}).1.toOption.get
    (by decide +kernel)

def tokenizer : Tokenizer := { serial := 0, rulesSerial := 1, grammar := compilation.grammar }

/-- The store of the grammar before the first line. -/
def store : Store := { patterns := compilation.patterns }

end Named

/-- States that compare equal, from which a line is tokenized otherwise. A start
has taken the end of its line or has not, with as many scopes; or the words of a
start are divided otherwise among its scopes and those of what follows it. -/
theorem equivalent_states_scan_apart :
    let state := firstState Sample.tokenizer Sample.store
    let named := firstState Named.tokenizer Named.store
    ((state "x").equivalent (state "x ") = true ∧
      (state "x").scopeSizes = (state "x ").scopeSizes ∧
      tokensAfter Sample.tokenizer Sample.store "x" "z" = [⟨0, 1, ["source.x", "first"]⟩] ∧
      tokensAfter Sample.tokenizer Sample.store "x " "z" = [⟨0, 1, ["source.x"]⟩]) ∧
    (named "<a b;c>").equivalent (named "<a;b c>") = true ∧
      (named "<a b;c>").top.tookLineEnd = (named "<a;b c>").top.tookLineEnd ∧
      tokensAfter Named.tokenizer Named.store "<a b;c>" "y" = [⟨0, 1, ["source.x", "a", "b"]⟩] ∧
      tokensAfter Named.tokenizer Named.store "<a;b c>" "y" = [⟨0, 1, ["source.x", "a"]⟩] := by
  decide +kernel

end ScopeLexer

import ScopeLexer.Proofs.CompilationAgreement
import ScopeLexer.Proofs.PackedAgreement
import ScopeLexer.Proofs.StateCongruence
import ScopeLexer.Proofs.WorkInvariant

/-! What the states that lines leave look like. A frame comes onto a stack when a
rule with an end or a condition is entered, goes when that is left, and has its
content scopes reset when its end is handled; no step does anything else to the
frames below the top. So the frame at the bottom stays what it was before the
first line, and each frame above it continues the one below: one deeper, with
scopes inside its scopes, and with an end of its own exactly where the end of its
rule speaks of what the start captured.

The last needs that the compiler has told the truth about this. -/
namespace ScopeLexer

open Grammar Pattern Regex

/-- The pattern of a number has back-references. -/
def CompiledGrammar.refersBack (grammar : CompiledGrammar) (pattern : PatternId) : Bool :=
  grammar.patterns[pattern]?.any Pattern.hasReferences

/-- A frame can have this rule and this resolved end: the rule has an end or a
condition, and there is a resolved one exactly if that has back-references. -/
inductive CompiledGrammar.Opens (grammar : CompiledGrammar) (id : RuleId) (ending : Option String) :
    Prop where
  | region {rule : RegionRule} (isRegion : grammar.rule id = .region rule)
    (resolved : ending.isSome = grammar.refersBack rule.stop)
  | block {rule : BlockRule} (isBlock : grammar.rule id = .block rule)
    (resolved : ending.isSome = grammar.refersBack rule.condition)

/-- Frames, from the top down, that stand on a bottom frame: this has the rule of the
top level, and each other frame continues the one below it. -/
inductive Frame.Piled (grammar : CompiledGrammar) (bottom : Frame) : List Frame → Prop where
  | ground (rule : bottom.rule = grammar.root) (depth : bottom.depth = 1)
    (own : bottom.nameScopes.Within bottom.contentScopes) : Piled grammar bottom [bottom]
  | upper {frame below : Frame} {rest : List Frame} (piled : Piled grammar bottom (below :: rest))
    (opens : grammar.Opens frame.rule frame.ending) (depth : frame.depth = below.depth + 1)
    (outer : below.contentScopes.Within frame.nameScopes)
    (own : frame.nameScopes.Within frame.contentScopes) :
    Piled grammar bottom (frame :: below :: rest)

/-- A state between lines: its frames stand on a bottom frame, and none of them
knows of a byte. -/
structure Stack.Regular (grammar : CompiledGrammar) (bottom : Frame) (stack : Stack) : Prop where
  piled : Frame.Piled grammar bottom stack.frames
  positions : ∀ frame ∈ stack.frames, frame.enteredAt = none ∧ frame.anchor = none

/-- A rule with an end or a condition is right about its back-references. -/
theorem Grammar.Compilation.Fits.endingHasReferences {compilation : Compilation}
    (fits : compilation.Fits) {id : RuleId} {rule : Line.Spanning}
    (spans : Line.spanning? (compilation.grammar.rule id) = some rule) :
    rule.endingHasReferences = compilation.grammar.refersBack rule.ending := by
  have refersBack (pattern : PatternId) : compilation.grammar.refersBack pattern =
      compilation.patterns[pattern]?.any (·.pattern.hasReferences) := by
    rw [CompiledGrammar.refersBack, fits.texts, Array.getElem?_map, Option.any_map]
  rw [refersBack]
  unfold CompiledGrammar.rule at spans
  cases held : compilation.grammar.rules[id]? with
  | none =>
    rw [held] at spans
    cases spans
  | some made =>
    rw [held, Option.getD_some] at spans
    have own := fits.fits made (Array.mem_of_getElem? held)
    cases made with
    | region made =>
      cases spans
      exact own.2.2
    | block made =>
      cases spans
      exact own.2.2
    | single | group | capture | reserved => cases spans

/-- Whatever has been tokenized, the compiler has told the truth about back-references. -/
theorem InUse.endingHasReferences {engine : Engine} {grammar : CompiledGrammar} {store : Store}
    (used : InUse engine grammar store) {id : RuleId} {rule : Line.Spanning}
    (spans : Line.spanning? (grammar.rule id) = some rule) :
    rule.endingHasReferences = grammar.refersBack rule.ending := by
  induction used with
  | compiled compiles same noted =>
    subst same
    exact (compile_fits compiles).endingHasReferences spans
  | scanned tokenizer same theme state text clock used ih => exact ih
  | shared used also noted ihUsed ihAlso => exact ihUsed

namespace Frame.Piled

variable {grammar : CompiledGrammar} {bottom : Frame} {stack : Stack}

/-- The scopes of every frame go on inside those of the bottom frame. -/
theorem within {frames : List Frame} (piled : Piled grammar bottom frames) :
    ∀ frame ∈ frames, bottom.nameScopes.Within frame.nameScopes ∧
      bottom.nameScopes.Within frame.contentScopes := by
  induction piled with
  | ground rule depth own =>
    intro frame member
    rw [List.mem_singleton.mp member]
    exact ⟨.same, own⟩
  | upper piled opens depth outer own ih =>
    intro frame member
    rcases List.mem_cons.mp member with rfl | below
    · have name := (ih _ List.mem_cons_self).2.trans outer
      exact ⟨name, name.trans own⟩
    · exact ih frame below

theorem pop (piled : Piled grammar bottom stack.frames) :
    Piled grammar bottom stack.pop.frames := by
  obtain ⟨top, rest⟩ := stack
  cases rest with
  | nil => exact piled
  | cons below rest =>
    cases piled with
    | upper piled => exact piled

/-- Handling an end leaves the bottom frame as it is. -/
theorem closing (level : bottom.contentScopes = bottom.nameScopes)
    (piled : Piled grammar bottom stack.frames) :
    Piled grammar bottom stack.closing.frames := by
  obtain ⟨top, rest⟩ := stack
  cases rest with
  | nil =>
    cases piled with
    | ground rule depth own =>
      have same : Stack.closing ⟨top, []⟩ = ⟨top, []⟩ := by
        cases top
        cases level
        rfl
      rw [same]
      exact .ground rule depth own
  | cons below rest =>
    cases piled with
    | upper piled opens depth outer own => exact .upper piled opens depth outer .same

theorem forgetLine (forgotten : Stack.forgetFrame bottom = bottom)
    (piled : Piled grammar bottom stack.frames) :
    Piled grammar bottom stack.forgetLine.frames := by
  have all {frames : List Frame} (piled : Piled grammar bottom frames) :
      Piled grammar bottom (frames.map Stack.forgetFrame) := by
    induction piled with
    | ground rule depth own =>
      rw [List.map_singleton, forgotten]
      exact .ground rule depth own
    | upper piled opens depth outer own ih => exact .upper ih opens depth outer own
  exact all piled

end Frame.Piled

namespace Line

variable {σ : Type} {scanner : Scanner σ} {bottom : Frame}

/-- A rule with an end or a condition can be that of a frame with the end it gets. -/
theorem opens_enteredStack
    (truthful : ∀ id rule, spanning? (scanner.grammar.rule id) = some rule →
      rule.endingHasReferences = scanner.grammar.refersBack rule.ending)
    {id : RuleId} {rule : Spanning} (spans : spanning? (scanner.grammar.rule id) = some rule)
    {ending : Option String} (resolved : ending.isSome = rule.endingHasReferences) :
    scanner.grammar.Opens id ending := by
  have refersBack := resolved.trans (truthful id rule spans)
  cases held : scanner.grammar.rule id with
  | region made =>
    rw [held] at spans
    cases spans
    exact .region held refersBack
  | block made =>
    rw [held] at spans
    cases spans
    exact .block held refersBack
  | single | group | capture | reserved =>
    rw [held] at spans
    cases spans

/-- Every step keeps frames standing on the bottom frame. -/
theorem piled_invariant
    (truthful : ∀ id rule, spanning? (scanner.grammar.rule id) = some rule →
      rule.endingHasReferences = scanner.grammar.refersBack rule.ending)
    (level : bottom.contentScopes = bottom.nameScopes) :
    StackInvariant scanner fun stack => Frame.Piled scanner.grammar bottom stack.frames where
  enter line cursor found id rule piled spans := by
    unfold enteredStack
    simp only
    split
    next refers =>
      exact .upper piled (opens_enteredStack truthful spans refers.symm) rfl
        (ScopePath.within_push ..) (ScopePath.within_push ..)
    next plain =>
      exact .upper piled (opens_enteredStack truthful spans (by rw [Bool.eq_false_iff.mpr plain]; rfl))
        rfl
        (ScopePath.within_push ..) (ScopePath.within_push ..)
  close _ piled := piled.closing level
  pop _ piled := piled.pop

end Line

theorem ScopePath.names_inside (outer : ScopePath) (scope : Scope) (metadata : Style.Metadata) :
    (ScopePath.inside outer scope metadata).names = outer.names ++ [scope.text] :=
  List.reverse_cons

/-- What a path goes on inside of has the names that its own begin with. -/
theorem ScopePath.Within.names {outer path : ScopePath} (within : outer.Within path) :
    outer.names <+: path.names := by
  induction within with
  | same => exact List.prefix_refl _
  | inside within scope metadata ih =>
    rw [ScopePath.names_inside]
    exact ih.trans (List.prefix_append _ _)

namespace Line

/-- The pieces of a scan have scopes inside those of the frames it starts from. -/
theorem scopes_invariant {σ : Type} (scanner : Scanner σ) (outer : ScopePath) :
    WorkInvariant scanner outer.Within fun work : Work σ =>
      ∀ piece ∈ work.pieces.items.toList, outer.Within piece.scopes :=
  pieces_invariant scanner fun styling path names within => within.trans (path.within_push styling names)

/-- Tokens have the scopes of pieces, or those reached at the end of the line. -/
theorem tokens_within {outer scopes : ScopePath} {pieces : Pieces}
    (inside : ∀ piece ∈ pieces.items.toList, outer.Within piece.scopes)
    (last : outer.Within scopes) (line : SourceLine) :
    ∀ token ∈ tokens line pieces scopes, outer.names <+: token.scopes := by
  have visible : ∀ piece ∈ visiblePieces line pieces scopes, outer.Within piece.scopes := by
    unfold visiblePieces
    split
    · intro piece member
      rw [List.mem_singleton.mp member]
      exact last
    · intro piece member
      refine inside piece ?_
      unfold dropLineEnd at member
      split at member
      · exact (List.dropLast_sublist _).subset member
      · exact member
  intro token member
  have named : token.scopes ∈ (visiblePieces line pieces scopes).map fun piece => piece.scopes.names := by
    have scopes := (start_stretchLast (contentLength line) ((visiblePieces line pieces scopes).map
      fun piece => ⟨clampedChar line piece.start, clampedChar line piece.stop,
        piece.scopes.names⟩)).2
    rw [List.map_map] at scopes
    exact scopes ▸ List.mem_map_of_mem member
  obtain ⟨piece, among, same⟩ := List.mem_map.mp named
  rw [← same]
  exact (visible piece among).names

end Line

/-- A scan keeps its stack standing on the frame from before the first line. -/
theorem Tokenizer.piled_outcome (tokenizer : Tokenizer) {engine : Engine} {store : Store}
    (used : InUse engine tokenizer.grammar store) {bottom : Frame}
    (piled : Frame.Piled tokenizer.grammar bottom (tokenizer.startStack theme state).frames)
    (level : bottom.contentScopes = bottom.nameScopes) (text : String) (clock : Clock) :
    Frame.Piled tokenizer.grammar bottom
      (tokenizer.outcome engine theme state text clock store).stack.frames := by
  have invariant : Line.StackInvariant
      (tokenizer.scannerWith theme (Line.rememberingFinder engine tokenizer.grammar)) _ :=
    Line.piled_invariant (fun _ _ => used.endingHasReferences) level
  exact invariant.scan piled tokenizer.depth clock _ _ _

namespace Tokenizer.Reached

variable {tokenizer : Tokenizer} {engine : Engine} {themes : Theme → Prop} {state : Option Stack}

/-- The stack that a line is scanned from stands on the frame from before the first
line, under the theme of that line. -/
theorem piled (reached : Reached tokenizer engine themes state) (allowed : themes theme) :
    ∃ first, themes first ∧ (state = none → first = theme) ∧
      Frame.Piled tokenizer.grammar (tokenizer.initialState first).top
        (tokenizer.startStack theme state).frames := by
  induction reached generalizing theme with
  | start => exact ⟨theme, allowed, fun _ => rfl, .ground rfl rfl .same⟩
  | line before used reached text clock ih =>
    obtain ⟨first, among, _, piled⟩ := ih before
    have scanned := tokenizer.piled_outcome used piled rfl text clock
    exact ⟨first, among, by rintro ⟨⟩, (scanned.forgetLine rfl).forgetLine rfl⟩

end Tokenizer.Reached

/-- The states that lines leave, and their tokens. Whatever lines were tokenized
before, under whatever themes, and whenever the time was over: the frame from before
the first line stays at the bottom; every other frame is of a rule with an end or a
condition, resolved exactly if that has back-references; it is one deeper than the
frame below it, and its scopes go on inside those of that frame; no frame knows of a
byte; and the scopes of every token go on inside those of the bottom frame. -/
theorem reached_states_regular (tokenizer : Tokenizer) {engine : Engine} {themes : Theme → Prop}
    {state : Option Stack} (reached : tokenizer.Reached engine themes state) {store : Store}
    (used : InUse engine tokenizer.grammar store) {theme : Theme} (allowed : themes theme)
    (text : String) (clock : Clock) :
    let scanned := (tokenizer.scanLine engine theme state text clock store).1
    ∃ first, themes first ∧ (state = none → first = theme) ∧
      (∀ before, state = some before →
        before.Regular tokenizer.grammar (tokenizer.initialState first).top) ∧
      scanned.state.Regular tokenizer.grammar (tokenizer.initialState first).top ∧
      ∀ token ∈ scanned.tokens,
        (tokenizer.initialState first).contentScopes.names <+: token.scopes := by
  intro scanned
  obtain ⟨first, among, atStart, piled⟩ := reached.piled allowed
  have leaves := (tokenizer.piled_outcome used piled rfl text clock).forgetLine rfl
  refine ⟨first, among, atStart, ?_, ⟨leaves, ?_⟩, ?_⟩
  · rintro before rfl
    have same : tokenizer.startStack theme (some before) = before := reached.forgetLine_eq
    rw [same] at piled
    exact ⟨piled, fun frame member => Stack.of_forgetLine reached.forgetLine_eq member⟩
  · exact fun frame member => Stack.of_forgetLine (Stack.forgetLine_forgetLine _) member
  · let outer := (tokenizer.initialState first).contentScopes
    have pieces : ∀ piece ∈
        (tokenizer.outcome engine theme state text clock store).work.pieces.items.toList,
        outer.Within piece.scopes :=
      (Line.scopes_invariant _ outer).scan piled.within (by simp) tokenizer.depth clock _ _
    exact Line.tokens_within pieces (leaves.within _ List.mem_cons_self).2 _

namespace Fences

/-- A grammar with a region whose end repeats what its start captured, and inside it a
rule with a condition. -/
def source : GrammarSource where
  scopeName := "source.f"
  patterns := [1]
  rules := #[{ beginPattern := some "-", whilePattern := some "-", name := some "list" },
    { beginPattern := some "<(a|b)", endPattern := some "\\1>", patterns := some [0]
      name := some "fence", contentName := some "inside.$1" }]

@[irreducible]
def compilation : Compilation :=
  (compile "source.f" ⟨[("source.f", source)]⟩ [] backtracking {}).1.toOption.get
    (by decide +kernel)

def tokenizer : Tokenizer := { serial := 0, rulesSerial := 1, grammar := compilation.grammar }

/-- The store of the grammar before the first line. -/
def store : Store := { patterns := compilation.patterns }

theorem compiles :
    (compile "source.f" ⟨[("source.f", source)]⟩ [] backtracking {}).1.toOption =
      some compilation := by
  rw [compilation, Option.some_get]

theorem inUse : InUse backtracking tokenizer.grammar store := .of_toOption compiles

end Fences

/-- The state after a line that enters two rules, one with back-references in its end
and one without, and the line after it. -/
theorem reached_states_regular_fences :
    let state := firstState Fences.tokenizer Fences.store "<b-"
    let scanned := (Fences.tokenizer.scanLine backtracking .plain (some state) "- b> <a"
      (fun _ => false) Fences.store).1
    Fences.tokenizer.Reached backtracking (· = .plain) (some state) ∧
      InUse backtracking Fences.tokenizer.grammar Fences.store ∧
      state.frames.map Frame.ending = [none, some "b>", none] ∧
      ∃ first, first = Theme.plain ∧ (some state = none → first = .plain) ∧
        (∀ before, some state = some before →
          before.Regular Fences.tokenizer.grammar (Fences.tokenizer.initialState first).top) ∧
        scanned.state.Regular Fences.tokenizer.grammar (Fences.tokenizer.initialState first).top ∧
        ∀ token ∈ scanned.tokens,
          (Fences.tokenizer.initialState first).contentScopes.names <+: token.scopes := by
  intro state scanned
  have reached := reached_firstState Fences.inUse "<b-"
  exact ⟨reached, Fences.inUse, by decide +kernel,
    reached_states_regular Fences.tokenizer reached Fences.inUse rfl "- b> <a" _⟩

end ScopeLexer

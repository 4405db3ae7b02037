import ScopeLexer.Proofs.CompilerGrowth

/-! What a grammar is compiled to does not depend on what was in the journal before. The
compiler only writes into it: every step does the same to the rest of its state, and gives
the same, whatever the journal holds. -/
namespace ScopeLexer.Grammar

open Pattern Regex

/-- The state with another journal. -/
def CompilerState.noted (state : CompilerState) (journal : Journal) : CompilerState :=
  { state with journal := journal }

/-- With another journal a computation gives the same, and does the same to all but the
journal. -/
def Heedless (compute : CompileM α) : Prop :=
  ∀ state journal, ∃ later, compute.run.run (state.noted journal) =
    ((compute.run.run state).1, (compute.run.run state).2.noted later)

theorem heedless_pure (value : α) : Heedless (pure value : CompileM α) :=
  fun _ journal => ⟨journal, rfl⟩

theorem heedless_throw (error : CompileError) : Heedless (throw error : CompileM α) :=
  fun _ journal => ⟨journal, rfl⟩

theorem heedless_bind {first : CompileM α} {next : α → CompileM β} (head : Heedless first)
    (tail : ∀ value, Heedless (next value)) : Heedless (first >>= next) := by
  intro state journal
  obtain ⟨later, run⟩ := head state journal
  simp only [run_bind, run]
  rcases first.run.run state with ⟨error | value, middle⟩
  · exact ⟨later, rfl⟩
  · exact tail value middle later

theorem heedless_map {first : CompileM α} (change : α → β) (head : Heedless first) :
    Heedless (change <$> first) := by
  rw [← bind_pure_comp]
  exact heedless_bind head fun value => heedless_pure (change value)

/-- What is read of the state may be all but the journal. -/
theorem heedless_get {next : CompilerState → CompileM α}
    (same : ∀ state journal, next (state.noted journal) = next state)
    (tail : ∀ state, Heedless (next state)) : Heedless (get >>= next) := by
  intro state journal
  simp only [run_bind, run_get, same]
  exact tail state state journal

theorem heedless_mapM {items : List ι} {body : ι → CompileM α}
    (each : ∀ item, Heedless (body item)) : Heedless (items.mapM body) := by
  induction items with
  | nil => exact heedless_pure []
  | cons item items ih =>
    rw [List.mapM_cons]
    exact heedless_bind (each item) fun value => heedless_bind ih fun values => heedless_pure _

theorem heedless_filterMapM {items : List ι} {body : ι → CompileM (Option α)}
    (each : ∀ item, Heedless (body item)) : Heedless (items.filterMapM body) := by
  induction items with
  | nil => exact heedless_pure []
  | cons item items ih =>
    rw [List.filterMapM_cons]
    apply heedless_bind (each item)
    intro value
    cases value with
    | none => exact ih
    | some value => exact heedless_bind ih fun values => heedless_pure _

theorem heedless_reserve : Heedless reserve := fun _ journal => ⟨journal, rfl⟩

theorem heedless_define (id : RuleId) (rule : Rule) : Heedless (define id rule) :=
  fun _ journal => ⟨journal, rfl⟩

theorem heedless_warn (warning : Warning) : Heedless (warn warning) :=
  fun _ journal => ⟨journal.warn warning, rfl⟩

theorem heedless_makeRoom (groups : List Nat) : Heedless (makeRoom groups) := by
  intro state journal
  rw [run_makeRoom, run_makeRoom]
  split
  · exact ⟨journal, rfl⟩
  · exact ⟨journal.overflowed, rfl⟩

theorem heedless_number (key : Key) (id : RuleId) : Heedless
    (modify fun state => { state with numbers := state.numbers.insert key id } : CompileM Unit) :=
  fun _ journal => ⟨journal, rfl⟩

theorem heedless_addPattern (engine : Engine) (text : String) (resolvedLater : Bool) :
    Heedless (addPattern engine text resolvedLater) := by
  intro state journal
  simp only [run_addPattern]
  split
  · exact ⟨journal, rfl⟩
  · unfold CachedPattern.validate
    cases engine.compile (CachedPattern.ofText text).pattern.source <;> exact ⟨_, rfl⟩

section

variable {recurse : Recurse} (recursive : ∀ context place, Heedless (recurse context place))
include recursive

/-- The tables of rules for groups do not depend on the journal. -/
theorem heedless_compileCaptures (context : Context) (captures : Option (Table Place)) :
    Heedless (compileCaptures recurse context captures) := by
  unfold compileCaptures
  apply heedless_bind (heedless_makeRoom _)
  intro room
  apply heedless_bind
  · apply heedless_mapM
    rintro ⟨group, place⟩
    have numbered (rule : Option RuleId → Rule) (retokenize : Option RuleId) : Heedless (do
        let id ← reserve
        define id (rule retokenize)
        return (group, id)) :=
      heedless_bind heedless_reserve fun id =>
        heedless_bind (heedless_define id _) fun _ => heedless_pure _
    dsimp only
    split
    · exact heedless_bind (heedless_map _ (recursive context (some place))) (numbered _)
    · exact heedless_bind (heedless_pure none) (numbered _)
  · exact fun slots => heedless_pure _

/-- What a reference leads to does not depend on the journal. -/
theorem heedless_compileReference (grammars : Loaded) (context : Context) (text : String) :
    Heedless (compileReference recurse grammars context text) := by
  have warned (resolved : Option RuleId) : Heedless (do
      if resolved.isNone then warn (.unresolvedReference text context.grammar.scopeName)
      return resolved) := by
    dsimp only
    split
    · exact heedless_bind (heedless_warn _) fun _ => heedless_pure resolved
    · exact heedless_pure resolved
  have followed (next : Context) (place : Option Place) :
      Heedless (some <$> recurse next place) := heedless_map _ (recursive next place)
  unfold compileReference
  dsimp only
  split
  · exact heedless_bind (followed _ _) warned
  · exact heedless_bind (followed _ _) warned
  · split
    · exact heedless_bind (followed _ _) warned
    · exact heedless_bind (heedless_pure none) warned
  · split
    · exact heedless_bind (followed _ _) warned
    · exact heedless_bind (heedless_pure none) warned
  · split
    · split
      · exact heedless_bind (followed _ _) warned
      · exact heedless_bind (heedless_pure none) warned
    · exact heedless_bind (heedless_pure none) warned

/-- The rules of a list do not depend on the journal. -/
theorem heedless_compilePatterns (grammars : Loaded) (context : Context) (places : List Place) :
    Heedless (compilePatterns recurse grammars context places) := by
  unfold compilePatterns
  apply heedless_bind
  · apply heedless_filterMapM
    intro place
    have filtered (compiled : Option RuleId) : Heedless (do
        let rules := (← get).rules
        return compiled.filter fun id => !(rules[id]?.getD .reserved).isHollow) :=
      heedless_get (fun _ _ => rfl) fun _ => heedless_pure _
    dsimp only
    split
    · exact heedless_bind (heedless_compileReference recursive grammars context _) filtered
    · exact heedless_bind (heedless_map _ (recursive _ _)) filtered
  · exact fun ids => heedless_pure _

/-- A rule with a start does not depend on the journal. -/
theorem heedless_compileSpanning (grammars : Loaded) (engine : Engine) (context : Context)
    (rule : RuleSource) (startPattern : String) :
    Heedless (compileSpanning recurse grammars engine context rule startPattern) := by
  have referring (id : PatternId) {next : Bool → CompileM Rule}
      (tail : ∀ value, Heedless (next value)) :
      Heedless ((do return ((← get).patterns[id]?).any (·.pattern.hasReferences)) >>= next) :=
    heedless_bind (heedless_get (fun _ _ => rfl) fun _ => heedless_pure _) tail
  unfold compileSpanning
  apply heedless_bind (heedless_addPattern engine startPattern false)
  intro start
  apply heedless_bind (heedless_compileCaptures recursive context _)
  intro startCaptures
  cases rule.whilePattern with
  | some condition =>
    apply heedless_bind (heedless_addPattern engine condition true)
    intro condition
    apply heedless_bind (heedless_compileCaptures recursive context _)
    intro conditionCaptures
    apply heedless_bind (heedless_compilePatterns recursive grammars context _)
    rintro ⟨patterns, incomplete⟩
    exact referring condition fun _ => heedless_pure _
  | none =>
    apply heedless_bind (heedless_addPattern engine _ true)
    intro stop
    apply heedless_bind (heedless_compileCaptures recursive context _)
    intro stopCaptures
    apply heedless_bind (heedless_compilePatterns recursive grammars context _)
    rintro ⟨patterns, incomplete⟩
    exact referring stop fun _ => heedless_pure _

theorem heedless_compileGroup (grammars : Loaded) (context : Context) (rule : RuleSource) :
    Heedless (compileGroup recurse grammars context rule) := by
  unfold compileGroup
  dsimp only
  split
  · exact heedless_bind (heedless_compileReference recursive grammars context _) fun _ =>
      heedless_bind (heedless_pure _) fun _ => heedless_pure _
  · exact heedless_bind (heedless_compilePatterns recursive grammars context _) fun _ =>
      heedless_pure _

theorem heedless_compileRule (grammars : Loaded) (engine : Engine) (context : Context)
    (rule : RuleSource) : Heedless (compileRule recurse grammars engine context rule) := by
  unfold compileRule
  cases rule.matchPattern with
  | some pattern =>
    exact heedless_bind (heedless_addPattern engine pattern false) fun _ =>
      heedless_bind (heedless_compileCaptures recursive _ _) fun _ => heedless_pure _
  | none =>
    cases rule.beginPattern with
    | some start => exact heedless_compileSpanning recursive grammars engine _ rule start
    | none => exact heedless_compileGroup recursive grammars _ rule

theorem heedless_compileTop (grammars : Loaded) (context : Context) :
    Heedless (compileTop recurse grammars context) := by
  unfold compileTop
  exact heedless_bind (heedless_compilePatterns recursive grammars context _) fun _ =>
    heedless_pure _

end

/-- At every depth, what is compiled does not depend on the journal. -/
theorem heedless_compileAt (grammars : Loaded) (engine : Engine) (depth : Nat) (context : Context)
    (place : Option Place) : Heedless (compileAt grammars engine depth context place) := by
  induction depth generalizing context place with
  | zero => exact heedless_throw _
  | succ depth ih =>
    unfold compileAt
    apply heedless_get (fun _ _ => rfl)
    intro state
    split
    · exact heedless_pure _
    · apply heedless_bind heedless_reserve
      intro id
      apply heedless_bind (heedless_number _ id)
      intro _
      have defined (rule : Rule) : Heedless (do define id rule; return id) :=
        heedless_bind (heedless_define id rule) fun _ => heedless_pure id
      cases place with
      | some place => exact heedless_bind (heedless_compileRule ih grammars engine context _) defined
      | none => exact heedless_bind (heedless_compileTop ih grammars context) defined

/-- What other grammars inject does not depend on the journal. -/
theorem heedless_compileInjectors {recurse : Recurse}
    (recursive : ∀ context place, Heedless (recurse context place)) (grammars : Loaded)
    (grammar : GrammarSource) (injectors : List String) :
    Heedless (compileInjectors recurse grammars grammar injectors) := by
  unfold compileInjectors
  apply heedless_bind
  · apply heedless_mapM
    intro injector
    split
    · exact heedless_bind (heedless_warn _) fun _ => heedless_pure _
    · split
      · exact heedless_pure _
      · exact heedless_bind (recursive _ _) fun _ => heedless_pure _
  · exact fun compiled => heedless_pure _

/-- The whole compilation does not depend on the journal that it starts with. -/
theorem heedless_compileAll (scopeName : String) (grammars : Loaded) (injectors : List String)
    (engine : Engine) : Heedless (compileAll scopeName grammars injectors engine) := by
  unfold compileAll
  split
  · exact heedless_throw _
  · next grammar _ =>
    have recursive := heedless_compileAt grammars engine (depthFor grammars)
    have own : Heedless (compileOwnInjections
        (compileAt grammars engine (depthFor grammars)) grammar) := by
      refine heedless_bind (heedless_mapM ?_) fun _ => heedless_pure _
      rintro ⟨selector, place⟩
      exact heedless_bind (recursive _ _) fun _ => heedless_pure _
    apply heedless_bind (recursive _ _)
    intro root
    apply heedless_bind own
    intro own
    exact heedless_bind (heedless_compileInjectors recursive grammars grammar injectors) fun _ =>
      heedless_pure _

/-- What a grammar is compiled to, or why it cannot be, is the same with any journal. -/
theorem compile_heedless (scopeName : String) (grammars : Loaded) (injectors : List String)
    (engine : Engine) (journal other : Journal) :
    (compile scopeName grammars injectors engine journal).1 =
      (compile scopeName grammars injectors engine other).1 := by
  obtain ⟨later, run⟩ :=
    heedless_compileAll scopeName grammars injectors engine { journal := other } journal
  have start : ({ journal := journal } : CompilerState) = .noted { journal := other } journal := rfl
  rw [compile, compile, start, run]
  rcases (compileAll scopeName grammars injectors engine).run.run { journal := other } with
    ⟨_ | ⟨root, injections⟩, final⟩
  · rfl
  · rfl

end ScopeLexer.Grammar

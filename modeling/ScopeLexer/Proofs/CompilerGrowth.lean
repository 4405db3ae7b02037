import ScopeLexer.Grammar.Compiler
import ScopeLexer.Proofs.StoreSoundness

/-! The compiler only adds. A rule that stands below a number given out later
stays as it is, since a rule is put only under a number that its own
compilation gave out; numbers and patterns stay what they are; and whatever is
remembered of a pattern was made by the engine. Counts that overflowed stay noted. So the first rule, the top
level of the grammar, is a list of rules when the compilation is over, and the
compiled patterns serve the grammar. -/
namespace ScopeLexer.Grammar

open Pattern Regex

/-- From one state to a later one the rules below a number stay, and so do the
numbers given out and the patterns. Patterns that the engine has vouched for are
joined by such patterns only. -/
structure Grown (engine : Engine) (floor : Nat) (before after : CompilerState) : Prop where
  size : before.rules.size ≤ after.rules.size
  rules : ∀ id < floor, after.rules[id]? = before.rules[id]?
  numbers : ∀ key id, before.numbers.get? key = some id → after.numbers.get? key = some id
  kept : ∀ (id : PatternId) cached, before.patterns[id]? = some cached →
    after.patterns[id]? = some cached
  patterns : (∀ cached ∈ before.patterns, cached.Sound engine) →
    ∀ cached ∈ after.patterns, cached.Sound engine
  overflows : before.journal.overflows ≤ after.journal.overflows

/-- No rule, number or pattern is touched. -/
theorem Grown.idle (rules : after.rules = before.rules) (numbers : after.numbers = before.numbers)
    (patterns : after.patterns = before.patterns)
    (overflows : before.journal.overflows ≤ after.journal.overflows) :
    Grown engine floor before after where
  size := Nat.le_of_eq (congrArg Array.size rules.symm)
  rules _ _ := by rw [rules]
  numbers _ _ given := by rw [numbers, given]
  kept _ _ held := by rw [patterns, held]
  patterns sound := by rwa [patterns]
  overflows := overflows

theorem Grown.refl : Grown engine floor state state := .idle rfl rfl rfl (Nat.le_refl _)

theorem Grown.trans (first : Grown engine floor before middle)
    (second : Grown engine floor middle after) : Grown engine floor before after where
  size := Nat.le_trans first.size second.size
  rules id below := (second.rules id below).trans (first.rules id below)
  numbers key id given := second.numbers key id (first.numbers key id given)
  kept id cached held := second.kept id cached (first.kept id cached held)
  patterns sound := second.patterns (first.patterns sound)
  overflows := Nat.le_trans first.overflows second.overflows

/-- A computation that lets the rules below a number be, from states that have
that many rules. -/
def Keeps (engine : Engine) (floor : Nat) (compute : CompileM α) : Prop :=
  ∀ state, floor ≤ state.rules.size → Grown engine floor state (compute.run.run state).2

theorem Keeps.size {compute : CompileM α} (keeps : Keeps engine 0 compute)
    (done : compute.run.run before = (result, after)) : before.rules.size ≤ after.rules.size := by
  have grown := keeps before (Nat.zero_le _)
  rw [done] at grown
  exact grown.size

theorem keeps_pure (value : α) : Keeps engine floor (pure value : CompileM α) :=
  fun _ _ => .refl

theorem keeps_throw (error : CompileError) :
    Keeps engine floor (throw error : CompileM α) :=
  fun _ _ => .refl

theorem keeps_get : Keeps engine floor (get : CompileM CompilerState) :=
  fun _ _ => .refl

/-- A computation goes on with its second part only if the first succeeds. -/
theorem run_bind (first : ExceptT ε (StateM σ) α) (next : α → ExceptT ε (StateM σ) β) (state : σ) :
    (first >>= next).run.run state = match first.run.run state with
      | (.ok value, state) => (next value).run.run state
      | (.error error, state) => (.error error, state) := by
  simp only [ExceptT.run_bind, StateT.run_bind]
  rcases first.run.run state with ⟨_ | value, middle⟩ <;> rfl

theorem run_get (state : σ) :
    (get : ExceptT ε (StateM σ) σ).run.run state = (.ok state, state) := rfl

theorem keeps_bind {first : CompileM α} {next : α → CompileM β} (head : Keeps engine floor first)
    (tail : ∀ value, Keeps engine floor (next value)) : Keeps engine floor (first >>= next) := by
  intro state enough
  have grown := head state enough
  rw [run_bind]
  rcases result : first.run.run state with ⟨_ | value, middle⟩
  · rw [result] at grown
    exact grown
  · rw [result] at grown
    exact grown.trans (tail value middle (Nat.le_trans enough grown.size))

theorem keeps_map {first : CompileM α} (change : α → β) (head : Keeps engine floor first) :
    Keeps engine floor (change <$> first) := by
  rw [← bind_pure_comp]
  exact keeps_bind head fun value => keeps_pure (change value)

theorem keeps_mapM {items : List ι} {body : ι → CompileM α}
    (each : ∀ item, Keeps engine floor (body item)) : Keeps engine floor (items.mapM body) := by
  induction items with
  | nil => exact keeps_pure []
  | cons item items ih =>
    rw [List.mapM_cons]
    exact keeps_bind (each item) fun value => keeps_bind ih fun values => keeps_pure _

theorem keeps_filterMapM {items : List ι} {body : ι → CompileM (Option α)}
    (each : ∀ item, Keeps engine floor (body item)) :
    Keeps engine floor (items.filterMapM body) := by
  induction items with
  | nil => exact keeps_pure []
  | cons item items ih =>
    rw [List.filterMapM_cons]
    apply keeps_bind (each item)
    intro value
    cases value with
    | none => exact ih
    | some value => exact keeps_bind ih fun values => keeps_pure _

/-- A number that is given out is above all rules there are. -/
theorem keeps_reserve {next : RuleId → CompileM α}
    (tail : ∀ id, floor ≤ id → Keeps engine floor (next id)) :
    Keeps engine floor (reserve >>= next) := by
  intro state enough
  rw [run_bind]
  have grown : Grown engine floor state { state with rules := state.rules.push .reserved } := by
    refine ⟨by simp, ?_, fun _ _ given => given, fun _ _ held => held, fun sound => sound, Nat.le_refl _⟩
    intro id below
    rw [Array.getElem?_push_lt (Nat.lt_of_lt_of_le below enough), Array.getElem?_eq_getElem]
  exact grown.trans (tail state.rules.size enough _ (Nat.le_trans enough grown.size))

theorem run_define (id : RuleId) (rule : Rule) (state : CompilerState) :
    (define id rule).run.run state =
      (.ok (), { state with rules := state.rules.setIfInBounds id rule }) := rfl

theorem keeps_define {id : RuleId} (above : floor ≤ id) (rule : Rule) :
    Keeps engine floor (define id rule) := by
  intro state enough
  rw [run_define]
  refine ⟨by simp, ?_, fun _ _ given => given, fun _ _ held => held, fun sound => sound, Nat.le_refl _⟩
  intro other below
  exact Array.getElem?_setIfInBounds_ne (Nat.ne_of_gt (Nat.lt_of_lt_of_le below above))

theorem keeps_warn (warning : Warning) : Keeps engine floor (warn warning) :=
  fun _ _ => .idle rfl rfl rfl (Nat.le_refl _)

/-- A count that overflows is noted. -/
theorem run_makeRoom (groups : List Nat) (state : CompilerState) :
    (makeRoom groups).run.run state = (.ok (CaptureTable.withRoom groups),
      if (CaptureTable.withRoom groups).size < 0x10000000000000000 then state
      else { state with journal := state.journal.overflowed }) := by
  unfold makeRoom
  dsimp only
  split <;> rfl

theorem keeps_makeRoom (groups : List Nat) : Keeps engine floor (makeRoom groups) := by
  intro state _
  rw [run_makeRoom]
  dsimp only
  split
  · exact .refl
  · exact .idle rfl rfl rfl (Nat.le_succ _)

private theorem sound_push {patterns : Array CachedPattern}
    (sound : ∀ held ∈ patterns, held.Sound engine) (new : CachedPattern.Sound engine added) :
    ∀ held ∈ patterns.push added, held.Sound engine := by
  intro held member
  rcases Array.mem_push.mp member with old | rfl
  · exact sound held old
  · exact new

/-- A pattern that the engine has vouched for is put behind the others. -/
private theorem grown_push {before after : CompilerState} (rules : after.rules = before.rules)
    (numbers : after.numbers = before.numbers)
    (pushed : after.patterns = before.patterns.push added) (new : CachedPattern.Sound engine added)
    (overflows : before.journal.overflows ≤ after.journal.overflows) :
    Grown engine floor before after where
  size := Nat.le_of_eq (congrArg Array.size rules.symm)
  rules _ _ := by rw [rules]
  numbers _ _ given := by rw [numbers, given]
  kept id cached held := by
    have bound := (Array.getElem?_eq_some_iff.mp held).1
    rw [pushed, Array.getElem?_push_lt bound, ← Array.getElem?_eq_getElem bound, held]
  patterns sound := by
    rw [pushed]
    exact sound_push sound new
  overflows := overflows

/-- A pattern that is completed later is only added; any other is compiled, and added if that
succeeds. -/
theorem run_addPattern (engine : Engine) (text : String) (resolvedLater : Bool)
    (state : CompilerState) :
    (addPattern engine text resolvedLater).run.run state =
      if resolvedLater && (Pattern.ofText text).hasReferences then
        (.ok state.patterns.size, { state with patterns := state.patterns.push (.ofText text) })
      else match (CachedPattern.ofText text).validate engine state.journal with
        | (.ok cached, journal) =>
          (.ok state.patterns.size,
            { state with patterns := state.patterns.push cached, journal := journal })
        | (.error reason, journal) =>
          (.error (.invalidPattern text reason), { state with journal := journal }) := by
  unfold addPattern
  rw [run_bind, run_get]
  change StateT.run (ExceptT.run (if resolvedLater && (Pattern.ofText text).hasReferences then _
    else _)) state = _
  by_cases later : (resolvedLater && (Pattern.ofText text).hasReferences) = true
  · rw [if_pos later, if_pos later]
    rfl
  · rw [if_neg later, if_neg later]
    rcases (CachedPattern.ofText text).validate engine state.journal with ⟨_ | cached, journal⟩ <;> rfl

/-- Adding a pattern leaves the rules and numbers as they are. -/
theorem keeps_addPattern (text : String) (resolvedLater : Bool) :
    Keeps engine floor (addPattern engine text resolvedLater) := by
  intro state enough
  have untouched := CachedPattern.sound_untouched engine (Pattern.ofText text)
  rw [run_addPattern]
  split
  · exact grown_push rfl rfl rfl untouched (Nat.le_refl _)
  · have same : ((CachedPattern.ofText text).validate engine state.journal).2.overflows =
        state.journal.overflows := by
      unfold CachedPattern.validate
      cases engine.compile (CachedPattern.ofText text).pattern.source <;> rfl
    rcases valid : (CachedPattern.ofText text).validate engine state.journal with ⟨_ | checked, journal⟩
    all_goals rw [valid] at same
    · exact .idle rfl rfl rfl (Nat.le_of_eq same.symm)
    · exact grown_push rfl rfl rfl (untouched.validate valid).2 (Nat.le_of_eq same.symm)

/-- A rule for a group of a match is compiled, and put under the next number. -/
def compileSlot (recurse : Recurse) (context : Context) (entry : Nat × Place) :
    CompileM (Nat × RuleId) := do
  let rule := context.grammar.rule entry.2
  let retokenize ← if rule.patterns.isSome then some <$> recurse context (some entry.2) else pure none
  let id ← reserve
  define id (.capture ⟨rule.name, rule.contentName, retokenize⟩)
  return (entry.1, id)

/-- What is put under the next number is the last of the rules. -/
theorem run_define_next (group : Nat) (rule : Rule) (state : CompilerState) :
    (do
      let id ← reserve
      define id rule
      return (group, id) : CompileM (Nat × RuleId)).run.run state =
      (.ok (group, state.rules.size), { state with rules := state.rules.push rule }) := by
  have held : (state.rules.push .reserved).setIfInBounds state.rules.size rule =
      state.rules.push rule := by
    apply Array.ext_getElem?
    intro id
    rw [Array.getElem?_setIfInBounds, Array.getElem?_push, Array.getElem?_push, Array.size_push]
    by_cases last : id = state.rules.size
    · simp [last]
    · simp [last, Ne.symm last]
  rw [← held]
  rfl

section

variable {recurse : Recurse} (recursive : ∀ context place, Keeps engine floor (recurse context place))
include recursive

/-- Compiling the rule for one group touches no rule below the floor. -/
theorem keeps_compileSlot (context : Context) (entry : Nat × Place) :
    Keeps engine floor (compileSlot recurse context entry) := by
  obtain ⟨group, place⟩ := entry
  have numbered (rule : Option RuleId → Rule) (retokenize : Option RuleId) :
      Keeps engine floor (do
        let id ← reserve
        define id (rule retokenize)
        return (group, id)) := by
    apply keeps_reserve
    intro id above
    exact keeps_bind (keeps_define above _) fun _ => keeps_pure _
  unfold compileSlot
  dsimp only
  split
  · exact keeps_bind (keeps_map _ (recursive context (some place))) (numbered _)
  · exact keeps_bind (keeps_pure none) (numbered _)

theorem keeps_compileCaptures (context : Context) (captures : Option (Table Place)) :
    Keeps engine floor (compileCaptures recurse context captures) :=
  keeps_bind (keeps_makeRoom _) fun _ =>
    keeps_bind (keeps_mapM (keeps_compileSlot recursive context)) fun _ => keeps_pure _

/-- Following a reference touches no rule below the floor. -/
theorem keeps_compileReference (grammars : Loaded) (context : Context) (text : String) :
    Keeps engine floor (compileReference recurse grammars context text) := by
  have warned (resolved : Option RuleId) : Keeps engine floor (do
      if resolved.isNone then warn (.unresolvedReference text context.grammar.scopeName)
      return resolved) := by
    dsimp only
    split
    · exact keeps_bind (keeps_warn _) fun _ => keeps_pure resolved
    · exact keeps_pure resolved
  unfold compileReference
  dsimp only
  split
  · exact keeps_bind (keeps_map _ (recursive _ _)) warned
  · exact keeps_bind (keeps_map _ (recursive _ _)) warned
  · split
    · exact keeps_bind (keeps_map _ (recursive _ _)) warned
    · exact keeps_bind (keeps_pure none) warned
  · split
    · exact keeps_bind (keeps_map _ (recursive _ _)) warned
    · exact keeps_bind (keeps_pure none) warned
  · split
    · split
      · exact keeps_bind (keeps_map _ (recursive _ _)) warned
      · exact keeps_bind (keeps_pure none) warned
    · exact keeps_bind (keeps_pure none) warned

/-- Compiling the rules of a list touches no rule below the floor. -/
theorem keeps_compilePatterns (grammars : Loaded) (context : Context) (places : List Place) :
    Keeps engine floor (compilePatterns recurse grammars context places) := by
  unfold compilePatterns
  apply keeps_bind
  · apply keeps_filterMapM
    intro place
    dsimp only
    split
    · exact keeps_bind (keeps_compileReference recursive grammars context _) fun compiled =>
        keeps_bind keeps_get fun state => keeps_pure _
    · exact keeps_bind (keeps_map _ (recursive _ _)) fun compiled =>
        keeps_bind keeps_get fun state => keeps_pure _
  · exact fun ids => keeps_pure _

/-- Compiling a rule with a start touches no rule below the floor. -/
theorem keeps_compileSpanning (grammars : Loaded) (context : Context) (rule : RuleSource)
    (startPattern : String) :
    Keeps engine floor (compileSpanning recurse grammars engine context rule startPattern) := by
  unfold compileSpanning
  apply keeps_bind (keeps_addPattern startPattern false)
  intro start
  apply keeps_bind (keeps_compileCaptures recursive context _)
  intro startCaptures
  have referring (id : PatternId) {next : Bool → CompileM Rule}
      (tail : ∀ value, Keeps engine floor (next value)) :
      Keeps engine floor ((do return ((← get).patterns[id]?).any (·.pattern.hasReferences)) >>= next) :=
    keeps_bind (keeps_bind keeps_get fun state => keeps_pure _) tail
  cases rule.whilePattern with
  | some condition =>
    apply keeps_bind (keeps_addPattern condition true)
    intro condition
    apply keeps_bind (keeps_compileCaptures recursive context _)
    intro conditionCaptures
    apply keeps_bind (keeps_compilePatterns recursive grammars context _)
    rintro ⟨patterns, incomplete⟩
    exact referring condition fun _ => keeps_pure _
  | none =>
    apply keeps_bind (keeps_addPattern _ true)
    intro stop
    apply keeps_bind (keeps_compileCaptures recursive context _)
    intro stopCaptures
    apply keeps_bind (keeps_compilePatterns recursive grammars context _)
    rintro ⟨patterns, incomplete⟩
    exact referring stop fun _ => keeps_pure _

theorem keeps_compileGroup (grammars : Loaded) (context : Context) (rule : RuleSource) :
    Keeps engine floor (compileGroup recurse grammars context rule) := by
  unfold compileGroup
  dsimp only
  split
  · exact keeps_bind (keeps_compileReference recursive grammars context _) fun _ =>
      keeps_bind (keeps_pure _) fun _ => keeps_pure _
  · exact keeps_bind (keeps_compilePatterns recursive grammars context _) fun _ => keeps_pure _

theorem keeps_compileRule (grammars : Loaded) (context : Context) (rule : RuleSource) :
    Keeps engine floor (compileRule recurse grammars engine context rule) := by
  unfold compileRule
  cases rule.matchPattern with
  | some pattern =>
    exact keeps_bind (keeps_addPattern pattern false) fun _ =>
      keeps_bind (keeps_compileCaptures recursive _ _) fun _ => keeps_pure _
  | none =>
    cases rule.beginPattern with
    | some start => exact keeps_compileSpanning recursive grammars _ rule start
    | none => exact keeps_compileGroup recursive grammars _ rule

theorem keeps_compileTop (grammars : Loaded) (context : Context) :
    Keeps engine floor (compileTop recurse grammars context) := by
  unfold compileTop
  apply keeps_bind (keeps_compilePatterns recursive grammars context _)
  rintro ⟨patterns, incomplete⟩
  exact keeps_pure _

end

/-- Something that has no number is given one. -/
theorem grown_entered (engine : Engine) {state : CompilerState} {key : Key}
    (enough : floor ≤ state.rules.size) (fresh : state.numbers.get? key = none) :
    Grown engine floor state { state with
      rules := state.rules.push .reserved
      numbers := state.numbers.insert key state.rules.size } where
  size := by simp
  rules id below := by
    rw [Array.getElem?_push_lt (Nat.lt_of_lt_of_le below enough), Array.getElem?_eq_getElem]
  numbers other id given := by
    have apart : other ≠ key := by
      rintro rfl
      cases given.symm.trans fresh
    rw [Dictionary.get?_insert, if_neg apart, given]
  kept _ _ held := held
  patterns sound := sound
  overflows := Nat.le_refl _

/-- Compiling a rule, with all that it refers to, lets every rule be that was
there before it. -/
theorem keeps_compileAt (grammars : Loaded) (depth : Nat) (context : Context)
    (place : Option Place) : Keeps engine floor (compileAt grammars engine depth context place) := by
  induction depth generalizing context place floor with
  | zero => exact keeps_throw _
  | succ depth ih =>
    intro state enough
    unfold compileAt
    rw [run_bind, run_get]
    cases fresh : state.numbers.get? ⟨place, context.grammar.scopeName⟩ with
    | some id =>
      simp only [fresh]
      exact .refl
    | none =>
      simp only [fresh]
      have defined (rule : Rule) :
          Keeps engine floor (do define state.rules.size rule; return state.rules.size) :=
        keeps_bind (keeps_define enough rule) fun _ => keeps_pure _
      have entered := grown_entered engine enough fresh
      have room := Nat.le_trans enough entered.size
      cases place with
      | some place =>
        exact entered.trans (keeps_bind (keeps_compileRule ih grammars context _) defined _ room)
      | none => exact entered.trans (keeps_bind (keeps_compileTop ih grammars context) defined _ room)

/-- A computation of two parts succeeds only through both. -/
theorem ok_of_run_bind {first : CompileM α} {next : α → CompileM β}
    (done : (first >>= next).run.run before = (.ok value, after)) :
    ∃ part middle, first.run.run before = (.ok part, middle) ∧
      (next part).run.run middle = (.ok value, after) := by
  rw [run_bind] at done
  rcases result : first.run.run before with ⟨_ | part, middle⟩
  · rw [result] at done
    cases done
  · rw [result] at done
    exact ⟨part, middle, rfl, done⟩

private theorem compileTop_group
    (done : (compileTop recurse grammars context).run.run before = (.ok rule, after)) :
    ∃ group, rule = .group group := by
  obtain ⟨⟨patterns, incomplete⟩, middle, _, rest⟩ := ok_of_run_bind done
  cases rest
  exact ⟨_, rfl⟩

/-- A top level that has no number yet is compiled to a list of rules. -/
theorem compileAt_top {id : RuleId} {grammars : Loaded} {context : Context}
    {before after : CompilerState}
    (fresh : before.numbers.get? ⟨none, context.grammar.scopeName⟩ = none)
    (done : (compileAt grammars engine (depth + 1) context none).run.run before = (.ok id, after)) :
    ∃ rule, after.rules[id]? = some (.group rule) := by
  unfold compileAt at done
  rw [run_bind, run_get] at done
  simp only [fresh] at done
  obtain ⟨number, reserved, reserves, done⟩ := ok_of_run_bind done
  cases reserves
  obtain ⟨_, noted, notes, done⟩ := ok_of_run_bind done
  cases notes
  obtain ⟨rule, compiled, top, done⟩ := ok_of_run_bind done
  obtain ⟨group, rfl⟩ := compileTop_group top
  have keeps : Keeps engine 0 (compileTop (compileAt grammars engine depth) grammars context) :=
    keeps_compileTop (keeps_compileAt grammars depth) grammars context
  have room : before.rules.size + 1 ≤ compiled.rules.size := by
    simpa using keeps.size top
  cases done
  exact ⟨group, by simp [Nat.lt_of_succ_le room]⟩

theorem keeps_inject (engine : Engine) (grammars : Loaded) (grammar : GrammarSource) (depth : Nat)
    (entries : List (String × Place)) :
    Keeps engine floor (entries.mapM fun (selector, place) => do
      return injectionsOf selector
        (← compileAt grammars engine depth (Context.top grammar grammar) (some place))) := by
  apply keeps_mapM
  rintro ⟨selector, place⟩
  exact keeps_bind (keeps_compileAt grammars depth _ _) fun _ => keeps_pure _

/-- Compiling what other grammars inject touches no rule below the floor. -/
theorem keeps_compileInjectors (engine : Engine) (grammars : Loaded) (grammar : GrammarSource)
    (injectors : List String) (depth : Nat) : Keeps engine floor
      (compileInjectors (compileAt grammars engine depth) grammars grammar injectors) := by
  unfold compileInjectors
  apply keeps_bind
  · apply keeps_mapM
    intro injector
    split
    · exact keeps_bind (keeps_warn _) fun _ => keeps_pure _
    · split
      · exact keeps_pure _
      · exact keeps_bind (keeps_compileAt grammars depth _ _) fun _ => keeps_pure _
  · exact fun compiled => keeps_pure _

private theorem keeps_injections (engine : Engine) (grammars : Loaded) (grammar : GrammarSource)
    (injectors : List String) (depth : Nat) (root : RuleId) : Keeps engine floor (do
      let own ← compileOwnInjections (compileAt grammars engine depth) grammar
      let injected ← compileInjectors (compileAt grammars engine depth) grammars grammar injectors
      return (root, sortInjections (own ++ injected))) := by
  apply keeps_bind
  · exact keeps_bind (keeps_inject engine grammars grammar depth _) fun compiled => keeps_pure _
  · intro own
    exact keeps_bind (keeps_compileInjectors engine grammars grammar injectors depth)
      fun injected => keeps_pure _

/-- What the compiler gives out: the root is a list of rules, and the patterns
are those of the grammar, with nothing remembered that the engine has not made. -/
theorem compile_serves {compilation : Compilation}
    (compiles : compile scopeName grammars injectors engine journal = (.ok compilation, after)) :
    (∃ rule, compilation.grammar.rule compilation.grammar.root = .group rule) ∧
      ∀ noted, ({ patterns := compilation.patterns, journal := noted } : Store).Serves engine
        compilation.grammar := by
  unfold compile at compiles
  rcases run : (compileAll scopeName grammars injectors engine).run.run { journal := journal }
    with ⟨_ | ⟨root, injections⟩, final⟩
  · rw [run] at compiles
    cases compiles
  rw [run] at compiles
  cases compiles
  unfold compileAll at run
  cases loaded : grammars.get? scopeName with
  | none =>
    rw [loaded] at run
    cases run
  | some grammar =>
    rw [loaded] at run
    obtain ⟨id, entered, first, rest⟩ := ok_of_run_bind run
    have top : Keeps engine 0
        (compileAt grammars engine (depthFor grammars) (Context.top grammar grammar) none) :=
      keeps_compileAt grammars _ _ none
    have sound := (top { journal := journal } (Nat.zero_le _)).patterns (by simp)
    rw [first] at sound
    obtain ⟨rule, isGroup⟩ := compileAt_top rfl first
    have bound : id < entered.rules.size := (Array.getElem?_eq_some_iff.mp isGroup).1
    have grown := keeps_injections engine grammars grammar injectors (depthFor grammars) id entered
      (Nat.le_refl _)
    rw [rest] at grown
    have same : root = id := by
      obtain ⟨own, _, _, rest⟩ := ok_of_run_bind rest
      obtain ⟨injected, _, _, rest⟩ := ok_of_run_bind rest
      cases rest
      rfl
    subst same
    refine ⟨⟨rule, ?_⟩, fun noted => ⟨rfl, grown.patterns sound, ?_⟩⟩
    · simp only [CompiledGrammar.rule]
      rw [grown.rules root bound, isGroup]
      rfl
    · intro text cached held
      cases held

end ScopeLexer.Grammar

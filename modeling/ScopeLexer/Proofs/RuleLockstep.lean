import ScopeLexer.Proofs.CompilerLockstep

/-! Rules compiled in step. Each function of the compiler goes in step with itself
once its recursive calls do and what it is given leads to the same on both sides.
A thing that has its number is not compiled again; one that has none is given the
same number, up to renaming, and what is left without a number becomes less. So
by induction on the depth the compiler goes in step with itself. -/
namespace ScopeLexer.Grammar

open Pattern Regex

namespace Lockstep

variable {lockstep : Lockstep} {depth otherDepth : Nat} {origin middle state other : CompilerState}

section Rules

variable {recurse otherRecurse : Recurse} {context otherContext : Context}

variable (lockstep) in
/-- Recursive calls go in step. -/
def Recursive (depth otherDepth : Nat) (recurse otherRecurse : Recurse) : Prop :=
  ∀ context other place origin, lockstep.Node context other place →
    lockstep.Pairs depth otherDepth origin (recurse context place) (otherRecurse other place)
      lockstep.rename lockstep.Valid

variable (lockstep) in
/-- The number, if there is one, has been given out and may be named. -/
def ValidIfAny (state : CompilerState) (compiled : Option RuleId) : Prop :=
  ∀ id ∈ compiled, lockstep.Valid state id

theorem ValidIfAny.later {compiled : Option RuleId} (valid : lockstep.ValidIfAny state compiled)
    (later : Later state middle) : lockstep.ValidIfAny middle compiled :=
  fun id among => (valid id among).later later

theorem pairs_none : lockstep.Pairs depth otherDepth origin (pure none) (pure none)
    (Option.map lockstep.rename) lockstep.ValidIfAny :=
  pairs_pure rfl fun _ _ _ among => nomatch among

/-- A rule for a group is put under a number of its own. -/
theorem pairs_slot (group : Nat) (rule : RuleSource) {retokenize : Option RuleId}
    (valid : lockstep.ValidIfAny origin retokenize) :
    lockstep.Pairs depth otherDepth origin
      (do
        let id ← reserve
        define id (.capture ⟨rule.name, rule.contentName, retokenize⟩)
        return (group, id))
      (do
        let id ← reserve
        define id (.capture ⟨rule.name, rule.contentName, retokenize.map lockstep.rename⟩)
        return (group, id))
      (Prod.map id lockstep.rename) (fun state slot => lockstep.Valid state slot.2) := by
  apply pairs_bind pairs_reserve
  intro middle id later given
  have named (other : RuleId) (among : other ∈ retokenize.toList) : lockstep.Valid middle other :=
    valid.later later other (Option.mem_toList.mp among)
  have defined : lockstep.Pairs depth otherDepth middle
      (define id (.capture ⟨rule.name, rule.contentName, retokenize⟩))
      (define (lockstep.rename id)
        (.capture ⟨rule.name, rule.contentName, retokenize.map lockstep.rename⟩))
      (fun _ => ()) fun _ _ => True := pairs_define given named trivial
  apply pairs_bind defined
  intro last _ after _
  exact pairs_pure rfl fun state final => given.later (after.trans final)

/-- Both sides see whether a pattern has back-references. -/
theorem pairs_hasReferences {pattern : PatternId} (bound : pattern < origin.patterns.size) :
    lockstep.Pairs depth otherDepth origin
      (do return ((← get).patterns[pattern]?).any (·.pattern.hasReferences))
      (do return ((← get).patterns[pattern]?).any (·.pattern.hasReferences))
      (fun answer => answer)
      (fun state answer => answer = state.patterns[pattern]?.any (·.pattern.hasReferences)) := by
  apply pairs_get
  intro state other later related
  refine pairs_pure (by rw [related.patterns]) ?_
  intro final after
  rw [after.patterns pattern (later.patterns_lt bound)]

variable (lockstep) in
/-- What a rule holds comes to the same on either side. `context` is inside the rule. -/
structure Inside (context otherContext : Context) (rule : RuleSource) : Prop where
  scopeName : otherContext.grammar.scopeName = context.grammar.scopeName
  tried : ∀ inner ∈ rule.triedPlaces,
    otherContext.grammar.rule inner = context.grammar.rule inner ∧
      Matched lockstep.Node (lockstep.left.held context inner)
        (lockstep.right.held otherContext inner)
  captured : ∀ inner ∈ rule.capturedPlaces,
    otherContext.grammar.rule inner = context.grammar.rule inner ∧
      ((context.grammar.rule inner).patterns.isSome →
        lockstep.Node context otherContext (some inner))
  standsFor : ∀ text, rule.standsFor = some text →
    Matched lockstep.Node (lockstep.left.target context (.ofText text))
      (lockstep.right.target otherContext (.ofText text))

theorem inside_of_node (node : lockstep.Node context otherContext (some number))
    {rule : RuleSource} (same : context.grammar.rule number = rule) :
    lockstep.Inside (context.inside rule.repository) (otherContext.inside rule.repository) rule where
  scopeName := by simpa [Context.inside] using lockstep.scopeName node
  tried := lockstep.tried node rule same
  captured := lockstep.captured node rule same
  standsFor := lockstep.standsFor node rule same

variable (lockstep) in
/-- The rules that a capture table names may be named. -/
def SlotsValid (state : CompilerState) (table : CaptureTable) : Prop :=
  ∀ id ∈ table.ids, lockstep.Valid state id

variable (lockstep) in
/-- A rule that can be put under a number. -/
structure Whole (state : CompilerState) (rule : Rule) : Prop where
  named : ∀ id ∈ rule.ids, lockstep.Valid state id
  fits : rule.PatternsFit state.patterns

theorem Whole.later {rule : Rule} (whole : lockstep.Whole state rule) (later : Later state middle) :
    lockstep.Whole middle rule :=
  ⟨fun id among => (whole.named id among).later later, later.patternsFit whole.fits⟩

variable (recursive : lockstep.Recursive depth otherDepth recurse otherRecurse)
include recursive

theorem pairs_some (node : lockstep.Node context otherContext place) :
    lockstep.Pairs depth otherDepth origin (some <$> recurse context place)
      (some <$> otherRecurse otherContext place) (Option.map lockstep.rename)
      lockstep.ValidIfAny := by
  refine pairs_map (recursive _ _ _ _ node) (fun _ => rfl) ?_
  intro middle state id valid later
  rintro _ ⟨⟩
  exact valid.later later

/-- The tables of rules for groups are compiled in step, if the rules for groups are. -/
theorem pairs_compileCaptures {captures : Option (Table Place)}
    (captured : ∀ inner ∈ (captures.map Table.values).getD [],
      otherContext.grammar.rule inner = context.grammar.rule inner ∧
      ((context.grammar.rule inner).patterns.isSome →
        lockstep.Node context otherContext (some inner))) :
    lockstep.Pairs depth otherDepth origin (compileCaptures recurse context captures)
      (compileCaptures otherRecurse otherContext captures) (CaptureTable.mapIds lockstep.rename)
      lockstep.SlotsValid := by
  unfold compileCaptures
  apply pairs_bind (pairs_makeRoom _)
  rintro middle room later rfl
  apply pairs_bind (pairs_mapM (Prod.map id lockstep.rename)
    (fun state slot => lockstep.Valid state slot.2) (fun _ _ _ valid later => valid.later later) ?_)
  · intro middle slots later valid
    refine pairs_pure ?_ ?_
    · rw [CaptureTable.mapIds_fill, CaptureTable.mapIds_withRoom]
    · intro state after id among
      obtain ⟨slot, member, rfl⟩ := List.mem_map.mp
        ((CaptureTable.mem_ids_fill among).resolve_left CaptureTable.not_mem_ids_withRoom)
      exact (valid slot member).later after
  · intro item member
    obtain ⟨⟨key, place⟩, entry, named⟩ := List.mem_filterMap.mp member
    obtain ⟨group, _, rfl⟩ := Option.map_eq_some_iff.mp named
    have among : place ∈ (captures.map Table.values).getD [] := by
      cases captures with
      | none => cases entry
      | some table => exact List.mem_map.mpr ⟨_, entry, rfl⟩
    obtain ⟨sameRule, node⟩ := captured place among
    simp only [sameRule]
    split
    next spans =>
      exact pairs_bind (pairs_some recursive (node spans)) fun middle retokenize later valid =>
        pairs_slot group _ valid
    next =>
      exact pairs_bind pairs_none fun middle retokenize later valid => pairs_slot group _ valid

/-- A reference is followed in step, if it leads to the same on both sides or to nothing on
both. -/
theorem pairs_compileReference (text : String)
    (scopeName : otherContext.grammar.scopeName = context.grammar.scopeName)
    (target : Matched lockstep.Node (lockstep.left.target context (.ofText text))
      (lockstep.right.target otherContext (.ofText text))) :
    lockstep.Pairs depth otherDepth origin
      (compileReference recurse lockstep.left context text)
      (compileReference otherRecurse lockstep.right otherContext text)
      (Option.map lockstep.rename) lockstep.ValidIfAny := by
  have warned (origin : CompilerState) (resolved : Option RuleId)
      (valid : lockstep.ValidIfAny origin resolved) :
      lockstep.Pairs depth otherDepth origin
        (do
          if resolved.isNone then warn (.unresolvedReference text context.grammar.scopeName)
          return resolved)
        (do
          if (resolved.map lockstep.rename).isNone then
            warn (.unresolvedReference text context.grammar.scopeName)
          return resolved.map lockstep.rename)
        (Option.map lockstep.rename) lockstep.ValidIfAny := by
    cases resolved with
    | none => exact pairs_bind (pairs_warn _) fun middle _ later _ => pairs_none
    | some id => exact pairs_pure rfl fun state later => valid.later later
  rw [compileReference_eq, compileReference_eq, scopeName]
  generalize lockstep.left.target context (.ofText text) = found at target
  generalize lockstep.right.target otherContext (.ofText text) = answer at target
  cases target with
  | nowhere => exact pairs_bind pairs_none fun middle resolved _ valid => warned middle resolved valid
  | somewhere node =>
    exact pairs_bind (pairs_some recursive node) fun middle resolved _ valid =>
      warned middle resolved valid

/-- A list is compiled in step, if each of its items stands for the same on both sides. -/
theorem pairs_compilePatterns {places : List Place}
    (scopeName : otherContext.grammar.scopeName = context.grammar.scopeName)
    (held : ∀ inner ∈ places, otherContext.grammar.rule inner = context.grammar.rule inner ∧
      Matched lockstep.Node (lockstep.left.held context inner)
        (lockstep.right.held otherContext inner)) :
    lockstep.Pairs depth otherDepth origin
      (compilePatterns recurse lockstep.left context places)
      (compilePatterns otherRecurse lockstep.right otherContext places)
      (Prod.map (List.map lockstep.rename) id)
      (fun state compiled => ∀ id ∈ compiled.1, lockstep.Valid state id) := by
  -- A rule is hollow on either side or on none.
  have filtered (origin : CompilerState) (compiled : Option RuleId)
      (valid : lockstep.ValidIfAny origin compiled) :
      lockstep.Pairs depth otherDepth origin
        (do
          let rules := (← get).rules
          return compiled.filter fun id => !(rules[id]?.getD .reserved).isHollow)
        (do
          let rules := (← get).rules
          return (compiled.map lockstep.rename).filter fun id =>
            !(rules[id]?.getD .reserved).isHollow)
        (Option.map lockstep.rename) lockstep.ValidIfAny := by
    apply pairs_get
    intro state other later related
    refine pairs_pure ?_ ?_
    · cases compiled with
      | none => rfl
      | some id =>
        have bound := (valid.later later id rfl).1
        have same := related.rules id bound
        rw [Array.getElem?_eq_getElem bound] at same
        simp only [Option.map_some, Option.filter_some, same, Option.getD_some,
          Rule.isHollow_mapIds, Array.getElem?_eq_getElem bound]
        split <;> rfl
    · intro final after id among
      exact valid.later (later.trans after) id (Option.filter_eq_some_iff.mp among).1
  unfold compilePatterns
  apply pairs_bind (pairs_filterMapM lockstep.rename lockstep.Valid
    (fun _ _ _ valid later => valid.later later) ?_)
  · intro middle ids later valid
    refine pairs_pure ?_ fun state after id among => (valid id among).later after
    simp
  · intro place member
    obtain ⟨sameRule, target⟩ := held place member
    simp only [sameRule]
    simp only [Loaded.held, sameRule] at target
    cases reference : (context.grammar.rule place).reference with
    | some text =>
      rw [reference] at target
      exact pairs_bind (pairs_compileReference recursive text scopeName target)
        fun middle compiled _ valid => filtered middle compiled valid
    | none =>
      rw [reference] at target
      cases target with
      | somewhere node =>
        exact pairs_bind (pairs_some recursive node) fun middle compiled _ valid =>
          filtered middle compiled valid

theorem Inside.pairs_captures {rule : RuleSource}
    (inside : lockstep.Inside context otherContext rule) {captures : Option (Table Place)}
    (own : captures ∈ rule.captureTables) :
    lockstep.Pairs depth otherDepth origin (compileCaptures recurse context captures)
      (compileCaptures otherRecurse otherContext captures) (CaptureTable.mapIds lockstep.rename)
      lockstep.SlotsValid :=
  pairs_compileCaptures recursive fun inner member =>
    inside.captured inner (List.mem_flatMap.mpr ⟨captures, own, member⟩)

/-- The end or the condition of a rule, with all that the rule holds. What becomes of
it is put together by the last arguments. -/
theorem pairs_ending {rule : RuleSource} (text : String) {captures : Option (Table Place)}
    (inside : lockstep.Inside context otherContext rule)
    (noMatch : rule.matchPattern = none) (own : captures ∈ rule.captureTables)
    (build otherBuild : PatternId → CaptureTable → List RuleId × Bool → Bool → Rule)
    (renamed : ∀ ending captures compiled answer,
      otherBuild ending (captures.mapIds lockstep.rename)
        (Prod.map (List.map lockstep.rename) id compiled) answer =
        (build ending captures compiled answer).mapIds lockstep.rename)
    (whole : ∀ state ending captures compiled answer, Later origin state →
      ending < state.patterns.size → lockstep.SlotsValid state captures →
      (∀ id ∈ compiled.1, lockstep.Valid state id) →
      answer = state.patterns[ending]?.any (·.pattern.hasReferences) →
      lockstep.Whole state (build ending captures compiled answer)) :
    lockstep.Pairs depth otherDepth origin
      (do
        let ending ← addPattern lockstep.engine text true
        let captures ← compileCaptures recurse context captures
        let compiled ← compilePatterns recurse lockstep.left context (rule.patterns.getD [])
        let answer ← (do return ((← get).patterns[ending]?).any (·.pattern.hasReferences))
        return build ending captures compiled answer)
      (do
        let ending ← addPattern lockstep.engine text true
        let captures ← compileCaptures otherRecurse otherContext captures
        let compiled ← compilePatterns otherRecurse lockstep.right otherContext
          (rule.patterns.getD [])
        let answer ← (do return ((← get).patterns[ending]?).any (·.pattern.hasReferences))
        return otherBuild ending captures compiled answer)
      (Rule.mapIds lockstep.rename) lockstep.Whole := by
  have tried : ∀ inner ∈ rule.patterns.getD [],
      otherContext.grammar.rule inner = context.grammar.rule inner ∧
        Matched lockstep.Node (lockstep.left.held context inner)
          (lockstep.right.held otherContext inner) := by
    simpa [RuleSource.triedPlaces, noMatch] using inside.tried
  apply pairs_bind (pairs_addPattern lockstep.engine text true)
  intro added ending fromOrigin bound
  apply pairs_bind (inside.pairs_captures recursive own)
  intro captured table fromAdded slots
  apply pairs_bind (pairs_compilePatterns recursive inside.scopeName tried)
  intro held compiled fromCaptured valid
  have bound := fromCaptured.patterns_lt (fromAdded.patterns_lt bound)
  apply pairs_bind (pairs_hasReferences bound)
  intro last answer fromHeld answers
  have fromCaptured := fromCaptured.trans fromHeld
  refine pairs_pure (renamed ..) fun state after => Whole.later ?_ after
  exact whole last ending table compiled answer
    (fromOrigin.trans (fromAdded.trans fromCaptured)) (fromHeld.patterns_lt bound)
    (fun id among => (slots id among).later fromCaptured)
    (fun id among => (valid id among).later fromHeld) answers

/-- A rule with a start is compiled in step, if what is inside is. -/
theorem pairs_compileSpanning {rule : RuleSource} {startPattern : String}
    (noMatch : rule.matchPattern = none) (inside : lockstep.Inside context otherContext rule) :
    lockstep.Pairs depth otherDepth origin
      (compileSpanning recurse lockstep.left lockstep.engine context rule startPattern)
      (compileSpanning otherRecurse lockstep.right lockstep.engine otherContext rule startPattern)
      (Rule.mapIds lockstep.rename) lockstep.Whole := by
  have either {own : Option (Table Place)} (among : own ∈ rule.captureTables) :
      (own.orElse fun _ => rule.captures) ∈ rule.captureTables := by
    cases own with
    | none => simp [RuleSource.captureTables]
    | some table => exact among
  unfold compileSpanning
  apply pairs_bind (pairs_addPattern lockstep.engine startPattern false)
  intro started start _ startBound
  apply pairs_bind (inside.pairs_captures recursive (either (by simp [RuleSource.captureTables])))
  intro entered startCaptures fromStarted startSlots
  have startBound := fromStarted.patterns_lt startBound
  have named {state : CompilerState} {captures : CaptureTable} {ids : List RuleId}
      (after : Later entered state) (slots : lockstep.SlotsValid state captures)
      (valid : ∀ id ∈ ids, lockstep.Valid state id) (id : RuleId)
      (among : id ∈ startCaptures.ids ++ captures.ids ++ ids) :
      lockstep.Valid state id := by
    rcases List.mem_append.mp among with captured | tried
    · rcases List.mem_append.mp captured with own | other
      · exact (startSlots id own).later after
      · exact slots id other
    · exact valid id tried
  cases rule.whilePattern with
  | some condition =>
    exact pairs_ending recursive condition inside noMatch
      (either (by simp [RuleSource.captureTables])) (blockOf rule start startCaptures)
      (blockOf rule start (startCaptures.mapIds lockstep.rename)) (fun _ _ _ _ => rfl)
      fun state ending captures compiled answer after bound slots valid answers =>
        ⟨named after slots valid, after.patterns_lt startBound, bound, answers⟩
  | none =>
    exact pairs_ending recursive _ inside noMatch
      (either (by simp [RuleSource.captureTables])) (regionOf rule start startCaptures)
      (regionOf rule start (startCaptures.mapIds lockstep.rename)) (fun _ _ _ _ => rfl)
      fun state ending captures compiled answer after bound slots valid answers =>
        ⟨named after slots valid, after.patterns_lt startBound, bound, answers⟩

/-- A rule that only holds others is compiled in step, if what is inside is. -/
theorem pairs_compileGroup {rule : RuleSource} (noMatch : rule.matchPattern = none)
    (noStart : rule.beginPattern = none) (inside : lockstep.Inside context otherContext rule) :
    lockstep.Pairs depth otherDepth origin (compileGroup recurse lockstep.left context rule)
      (compileGroup otherRecurse lockstep.right otherContext rule) (Rule.mapIds lockstep.rename)
      lockstep.Whole := by
  have grouped (origin : CompilerState) (compiled : List RuleId × Bool)
      (valid : ∀ id ∈ compiled.1, lockstep.Valid origin id) :
      lockstep.Pairs depth otherDepth origin
        (pure (.group ⟨rule.name, rule.contentName, compiled.1, compiled.2⟩))
        (pure (.group ⟨rule.name, rule.contentName, compiled.1.map lockstep.rename, compiled.2⟩))
        (Rule.mapIds lockstep.rename) lockstep.Whole :=
    pairs_pure rfl fun state later => ⟨fun id among => (valid id among).later later, trivial⟩
  have listed (places : List Place) (same : rule.triedPlaces = places) :
      lockstep.Pairs depth otherDepth origin
        (compilePatterns recurse lockstep.left context places >>= fun compiled =>
          pure (.group ⟨rule.name, rule.contentName, compiled.1, compiled.2⟩))
        (compilePatterns otherRecurse lockstep.right otherContext places >>= fun compiled =>
          pure (.group ⟨rule.name, rule.contentName, compiled.1, compiled.2⟩))
        (Rule.mapIds lockstep.rename) lockstep.Whole := by
    apply pairs_bind (pairs_compilePatterns recursive inside.scopeName (same ▸ inside.tried))
    exact fun middle compiled _ valid => grouped middle compiled valid
  have tried : rule.triedPlaces = rule.patterns.getD [] := by
    simp [RuleSource.triedPlaces, noMatch]
  unfold compileGroup
  cases patterns : rule.patterns with
  | some places => exact listed places (by rw [tried, patterns, Option.getD_some])
  | none =>
    cases reference : rule.reference with
    | none => exact listed [] (by rw [tried, patterns, Option.getD_none])
    | some text =>
      have target := inside.standsFor text
        (by simp [RuleSource.standsFor, noMatch, noStart, patterns, reference])
      apply pairs_bind (pairs_compileReference recursive text inside.scopeName target)
      intro middle resolved _ valid
      cases resolved with
      | none => exact grouped middle ([], true) (by simp)
      | some id => exact grouped middle ([id], false) (by simpa using valid id rfl)

/-- A rule is compiled in step, whatever its kind. -/
theorem pairs_compileRule {rule : RuleSource}
    (inside : lockstep.Inside (context.inside rule.repository)
      (otherContext.inside rule.repository) rule) :
    lockstep.Pairs depth otherDepth origin
      (compileRule recurse lockstep.left lockstep.engine context rule)
      (compileRule otherRecurse lockstep.right lockstep.engine otherContext rule)
      (Rule.mapIds lockstep.rename) lockstep.Whole := by
  unfold compileRule
  cases single : rule.matchPattern with
  | some pattern =>
    apply pairs_bind (pairs_addPattern lockstep.engine pattern false)
    intro added id _ bound
    apply pairs_bind (inside.pairs_captures recursive (by simp [RuleSource.captureTables]))
    intro middle captures later valid
    refine pairs_pure rfl fun state after => ⟨fun id among => (valid id among).later after, ?_⟩
    exact after.patterns_lt (later.patterns_lt bound)
  | none =>
    cases start : rule.beginPattern with
    | some text => exact pairs_compileSpanning recursive single inside
    | none => exact pairs_compileGroup recursive single start inside

theorem pairs_compileTop (node : lockstep.Node context otherContext none) :
    lockstep.Pairs depth otherDepth origin (compileTop recurse lockstep.left context)
      (compileTop otherRecurse lockstep.right otherContext) (Rule.mapIds lockstep.rename)
      lockstep.Whole := by
  have scopeName := lockstep.scopeName node
  unfold compileTop
  rw [lockstep.sameTop node, scopeName]
  apply pairs_bind (pairs_compilePatterns recursive scopeName (lockstep.top node))
  intro middle compiled _ valid
  exact pairs_pure rfl fun state later => ⟨fun id among => (valid id among).later later, trivial⟩

end Rules

section Numbers

variable {context otherContext : Context} {inner otherInner : Nat}

/-- Giving the same thing its number on both sides. -/
theorem Related.number (related : lockstep.Related depth otherDepth state other) {key : Key}
    (asked : lockstep.Asked key) {id : RuleId} (valid : lockstep.Valid state id)
    (enough : unnumbered lockstep.left { state with numbers := state.numbers.insert key id } < inner)
    (otherEnough : unnumbered lockstep.right
      { other with numbers := other.numbers.insert key (lockstep.rename id) } < otherInner) :
    lockstep.Related inner otherInner { state with numbers := state.numbers.insert key id }
      { other with numbers := other.numbers.insert key (lockstep.rename id) } :=
  { related with
    numbers := fun other among => by
      simp only [Dictionary.get?_insert]
      split
      · rfl
      · exact related.numbers other among
    numbered := fun other number among held => by
      simp only [Dictionary.get?_insert] at held
      split at held
      · cases held
        exact valid
      · exact related.numbered other number among held
    kept := fun other unasked => by
      have apart : other ≠ key := fun same => unasked (same ▸ asked)
      simp only [Dictionary.get?_insert, if_neg apart]
      exact related.kept other unasked
    depth := enough
    otherDepth := otherEnough }

theorem Related.deeper (related : lockstep.Related depth otherDepth state other)
    (more : depth ≤ inner) (otherMore : otherDepth ≤ otherInner) :
    lockstep.Related inner otherInner state other :=
  { related with
    depth := Nat.lt_of_lt_of_le related.depth more
    otherDepth := Nat.lt_of_lt_of_le related.otherDepth otherMore }

/-- A rule that says nothing is compiled without a look at any other. -/
theorem compileRule_empty (recurse : Recurse) (grammars : Loaded) (engine : Engine)
    (context : Context) :
    compileRule recurse grammars engine context {} = pure (.group ⟨none, none, [], false⟩) := rfl

theorem rule_of_size_le {grammar : GrammarSource} {number : Place}
    (beyond : grammar.rules.size ≤ number) : grammar.rule number = {} := by
  rw [GrammarSource.rule, Array.getElem?_eq_none beyond, Option.getD_none]

/-- The course of a compilation of something that has no number yet. -/
def compileFresh (grammars : Loaded) (engine : Engine) (recurse : Recurse) (context : Context) :
    Option Place → CompileM Rule
  | some number => compileRule recurse grammars engine context (context.grammar.rule number)
  | none => compileTop recurse grammars context

theorem run_compileAt (grammars : Loaded) (engine : Engine) (depth : Nat) (context : Context)
    (place : Option Place) (state : CompilerState) :
    (compileAt grammars engine (depth + 1) context place).run.run state =
      match state.numbers.get? ⟨place, context.grammar.scopeName⟩ with
      | some id => (.ok id, state)
      | none =>
        (do
          let rule ← compileFresh grammars engine (compileAt grammars engine depth) context place
          define state.rules.size rule
          return state.rules.size : CompileM RuleId).run.run
          { state with
            rules := state.rules.push .reserved
            numbers := state.numbers.insert ⟨place, context.grammar.scopeName⟩ state.rules.size } := by
  rw [compileAt, run_bind, run_get]
  cases number : state.numbers.get? ⟨place, context.grammar.scopeName⟩ with
  | some id =>
    simp only [number]
    rfl
  | none =>
    simp only [number]
    cases place <;> rfl

/-- Both sides compile something in step that has no number yet. -/
theorem pairs_compileFresh {recurse otherRecurse : Recurse}
    (recursive : lockstep.Recursive depth otherDepth recurse otherRecurse)
    (node : lockstep.Node context otherContext place) :
    lockstep.Pairs depth otherDepth origin
      (compileFresh lockstep.left lockstep.engine recurse context place)
      (compileFresh lockstep.right lockstep.engine otherRecurse otherContext place)
      (Rule.mapIds lockstep.rename) lockstep.Whole := by
  cases place with
  | none => exact pairs_compileTop recursive node
  | some number =>
    rw [compileFresh, compileFresh, lockstep.sameRule node]
    exact pairs_compileRule recursive (inside_of_node node rfl)

/-- What is not among the rules of the grammars at hand says nothing, on both sides. -/
theorem pairs_compileFresh_beyond {recurse otherRecurse : Recurse}
    (node : lockstep.Node context otherContext (some number))
    (beyond : context.grammar.rules.size ≤ number ∨ otherContext.grammar.rules.size ≤ number) :
    lockstep.Pairs depth otherDepth origin
      (compileFresh lockstep.left lockstep.engine recurse context (some number))
      (compileFresh lockstep.right lockstep.engine otherRecurse otherContext (some number))
      (Rule.mapIds lockstep.rename) lockstep.Whole := by
  have empty : context.grammar.rule number = {} := by
    rcases beyond with beyond | beyond
    · exact rule_of_size_le beyond
    · rw [← lockstep.sameRule node, rule_of_size_le beyond]
  rw [compileFresh, compileFresh, lockstep.sameRule node, empty, compileRule_empty, compileRule_empty]
  exact pairs_pure rfl fun state _ => ⟨by simp [Rule.ids], trivial⟩

/-- The state in which something that has just been given a number is compiled. -/
def CompilerState.entered (state : CompilerState) (key : Key) : CompilerState :=
  { state with
    rules := state.rules.push .reserved
    numbers := state.numbers.insert key state.rules.size }

theorem later_entered (state : CompilerState) (key : Key) :
    Later state (CompilerState.entered state key) :=
  ⟨by simp [CompilerState.entered], fun _ _ => rfl⟩

theorem Related.entered (related : lockstep.Related depth otherDepth state other) {key : Key}
    (asked : lockstep.Asked key)
    (enough : unnumbered lockstep.left (CompilerState.entered state key) < inner)
    (otherEnough : unnumbered lockstep.right (CompilerState.entered other key) < otherInner) :
    lockstep.Valid (CompilerState.entered state key) state.rules.size ∧
    lockstep.Related inner otherInner (CompilerState.entered state key)
      (CompilerState.entered other key) := by
  have valid : lockstep.Valid { state with rules := state.rules.push .reserved } state.rules.size :=
    ⟨by simp, (related.fresh _ (Nat.le_refl _)).1⟩
  unfold CompilerState.entered at enough otherEnough ⊢
  rw [related.size] at otherEnough ⊢
  exact ⟨valid, related.reserve.number asked valid enough otherEnough⟩

/-- What has just been given a number is compiled in step, and with less depth if
there is anything to compile. -/
theorem Related.fresh_enters (node : lockstep.Node context otherContext place)
    (related : lockstep.Related (depth + 1) (otherDepth + 1) state other)
    (fresh : state.numbers.get? ⟨place, context.grammar.scopeName⟩ = none)
    {recurse otherRecurse : Recurse}
    (recursive : lockstep.Recursive depth otherDepth recurse otherRecurse) :
    ∃ inner ≤ depth + 1, ∃ otherInner ≤ otherDepth + 1,
      lockstep.Valid (CompilerState.entered state ⟨place, context.grammar.scopeName⟩)
        state.rules.size ∧
      lockstep.Related inner otherInner
        (CompilerState.entered state ⟨place, context.grammar.scopeName⟩)
        (CompilerState.entered other ⟨place, context.grammar.scopeName⟩) ∧
      lockstep.Pairs inner otherInner
        (CompilerState.entered state ⟨place, context.grammar.scopeName⟩)
        (compileFresh lockstep.left lockstep.engine recurse context place)
        (compileFresh lockstep.right lockstep.engine otherRecurse otherContext place)
        (Rule.mapIds lockstep.rename) lockstep.Whole := by
  have otherFresh : other.numbers.get? ⟨place, context.grammar.scopeName⟩ = none := by
    rw [related.numbers _ (lockstep.asked node), fresh, Option.map_none]
  by_cases inRange : ∀ number, place = some number →
      number < context.grammar.rules.size ∧ number < otherContext.grammar.rules.size
  · have member : ⟨place, context.grammar.scopeName⟩ ∈ lockstep.left.keys :=
      key_mem_keys (lockstep.memberLeft node) fun number same => (inRange number same).1
    have otherMember : ⟨place, context.grammar.scopeName⟩ ∈ lockstep.right.keys := by
      rw [← lockstep.scopeName node]
      exact key_mem_keys (lockstep.memberRight node) fun number same => (inRange number same).2
    have less := unnumbered_insert_lt member fresh state.rules.size
    have otherLess := unnumbered_insert_lt otherMember otherFresh other.rules.size
    obtain ⟨valid, entered⟩ := related.entered (lockstep.asked node)
      (Nat.lt_of_lt_of_le less (Nat.le_of_lt_succ related.depth))
      (Nat.lt_of_lt_of_le otherLess (Nat.le_of_lt_succ related.otherDepth))
    exact ⟨depth, Nat.le_succ _, otherDepth, Nat.le_succ _, valid, entered,
      pairs_compileFresh recursive node⟩
  · simp only [Classical.not_forall] at inRange
    obtain ⟨number, rfl, beyond⟩ := inRange
    obtain ⟨valid, entered⟩ := related.entered (lockstep.asked node)
      (Nat.lt_of_le_of_lt (unnumbered_insert_le ..) related.depth)
      (Nat.lt_of_le_of_lt (unnumbered_insert_le ..) related.otherDepth)
    have beyond := Classical.not_and_iff_not_or_not.mp beyond
    simp only [Nat.not_lt] at beyond
    exact ⟨depth + 1, Nat.le_refl _, otherDepth + 1, Nat.le_refl _, valid, entered,
      pairs_compileFresh_beyond node beyond⟩

/-- Compilations that are in step stay in step, and do not want for depth. -/
theorem pairs_compileAt (depth otherDepth : Nat) : lockstep.Recursive depth otherDepth
    (compileAt lockstep.left lockstep.engine depth)
    (compileAt lockstep.right lockstep.engine otherDepth) := by
  induction depth generalizing otherDepth with
  | zero => exact fun _ _ _ _ _ _ _ _ related => nomatch related.depth
  | succ depth ih =>
    intro context otherContext place origin node state other later related
    cases otherDepth with
    | zero => exact nomatch related.otherDepth
    | succ otherDepth =>
      rw [run_compileAt, run_compileAt, lockstep.scopeName node,
        related.numbers _ (lockstep.asked node)]
      cases fresh : state.numbers.get? ⟨place, context.grammar.scopeName⟩ with
      | some id =>
        refine ⟨.refl _, related, rfl, ?_, by rintro ⟨⟩⟩
        rintro _ ⟨⟩
        exact related.numbered _ id (lockstep.asked node) fresh
      | none =>
        obtain ⟨inner, less, otherInner, otherLess, valid, entered, compiles⟩ :=
          related.fresh_enters node fresh (ih otherDepth)
        have pairs : lockstep.Pairs inner otherInner
            (CompilerState.entered state ⟨place, context.grammar.scopeName⟩)
            (do
              let rule ← compileFresh lockstep.left lockstep.engine
                (compileAt lockstep.left lockstep.engine depth) context place
              define state.rules.size rule
              return state.rules.size)
            (do
              let rule ← compileFresh lockstep.right lockstep.engine
                (compileAt lockstep.right lockstep.engine otherDepth) otherContext place
              define other.rules.size rule
              return other.rules.size)
            lockstep.rename lockstep.Valid := by
          rw [related.size]
          apply pairs_bind compiles
          intro middle rule after whole
          apply pairs_bind (pairs_define (valid.later after) whole.named whole.fits)
          intro last _ final _
          exact pairs_pure rfl fun state more => valid.later (after.trans (final.trans more))
        obtain ⟨grown, kept, same, good, enough⟩ := pairs _ _ (.refl _) entered
        exact ⟨(later_entered ..).trans grown, kept.deeper less otherLess, same, good, enough⟩

end Numbers

end Lockstep
end ScopeLexer.Grammar

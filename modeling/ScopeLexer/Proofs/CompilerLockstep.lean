import ScopeLexer.Proofs.CompilerGrowth

/-! Two compilations in lockstep. The one may look grammars up in another table
than the other, in contexts that read otherwise, and its rules may have other
numbers. As long as what a rule names leads to the same on both sides, the two
take the same course: what the one numbers the other numbers, the patterns are
the same, and so is what is noted.

The depth that the compiler is given is enough. Every level below the first
belongs to something that had no number yet, and there is only so much of it in
the grammars at hand. So no compilation ends for want of depth. -/
namespace ScopeLexer

theorem Table.mem_values {table : Table α} {key : String} {value : α}
    (held : table.get? key = some value) : value ∈ table.values := by
  obtain ⟨before, after, entries, _⟩ := List.lookup_eq_some_iff.mp held
  rw [Table.values, entries]
  simp

/-- A property that holds of fewer items, and not of one of those that another holds of, counts
less than the other. -/
theorem countP_lt_countP {items : List α} {fewer more : α → Bool}
    (implies : ∀ item, fewer item = true → more item = true) {item : α} (member : item ∈ items)
    (without : fewer item = false) (holds : more item = true) :
    items.countP fewer < items.countP more := by
  obtain ⟨front, back, rfl⟩ := List.append_of_mem member
  have first : front.countP fewer ≤ front.countP more :=
    List.countP_mono_left fun other _ => implies other
  have last : back.countP fewer ≤ back.countP more :=
    List.countP_mono_left fun other _ => implies other
  simp only [List.countP_append, List.countP_cons, without, holds, Bool.false_eq_true, if_false,
    if_true]
  omega

namespace Grammar

open Pattern Regex

/-- The table with each rule under another number. -/
def CaptureTable.mapIds (change : RuleId → RuleId) (table : CaptureTable) : CaptureTable :=
  ⟨table.rules.map (Option.map change)⟩

namespace CaptureTable

@[simp]
theorem mapIds_empty (change : RuleId → RuleId) : mapIds change {} = {} := by
  simp [mapIds]

@[simp]
theorem size_mapIds (change : RuleId → RuleId) (table : CaptureTable) :
    (table.mapIds change).size = table.size := by
  simp [mapIds, size]

theorem mapIds_withRoom (change : RuleId → RuleId) (groups : List Nat) :
    (withRoom groups).mapIds change = withRoom groups := by
  simp [withRoom, mapIds]

/-- Filling a table with other numbers gives the table with the other numbers. -/
theorem mapIds_fill (change : RuleId → RuleId) (slots : List (Nat × RuleId)) (table : CaptureTable) :
    (table.fill slots).mapIds change = (table.mapIds change).fill (slots.map (Prod.map id change)) := by
  induction slots generalizing table with
  | nil => rfl
  | cons slot slots ih =>
    have put : (table.put slot).mapIds change =
        (table.mapIds change).put (Prod.map id change slot) := by
      simp [CaptureTable.put, mapIds, Array.map_setIfInBounds]
    exact (ih (table.put slot)).trans (congrArg (fill · _) put)

theorem mem_ids_iff {table : CaptureTable} {id : RuleId} :
    id ∈ table.ids ↔ some id ∈ table.rules := by
  simp [ids]

/-- A filled table holds numbers that were in it before or that it was filled with. -/
theorem mem_ids_fill {slots : List (Nat × RuleId)} {table : CaptureTable} {id : RuleId}
    (member : id ∈ (table.fill slots).ids) : id ∈ table.ids ∨ id ∈ slots.map Prod.snd := by
  induction slots generalizing table with
  | nil => exact .inl member
  | cons slot slots ih =>
    rcases ih member with member | among
    · rcases Array.mem_or_eq_of_mem_setIfInBounds (mem_ids_iff.mp member) with held | same
      · exact .inl (mem_ids_iff.mpr held)
      · cases same
        exact .inr List.mem_cons_self
    · exact .inr (List.mem_cons_of_mem _ among)

theorem not_mem_ids_withRoom {groups : List Nat} {id : RuleId} : id ∉ (withRoom groups).ids := by
  simp [mem_ids_iff, withRoom]

end CaptureTable

namespace Rule

/-- The rule with other numbers for the rules that it names. -/
def mapIds (change : RuleId → RuleId) : Rule → Rule
  | .single rule => .single { rule with captures := rule.captures.mapIds change }
  | .group rule => .group { rule with patterns := rule.patterns.map change }
  | .region rule => .region { rule with
      startCaptures := rule.startCaptures.mapIds change
      stopCaptures := rule.stopCaptures.mapIds change
      patterns := rule.patterns.map change }
  | .block rule => .block { rule with
      startCaptures := rule.startCaptures.mapIds change
      conditionCaptures := rule.conditionCaptures.mapIds change
      patterns := rule.patterns.map change }
  | .capture rule => .capture { rule with retokenize := rule.retokenize.map change }
  | .reserved => .reserved

/-- The numbers of the rules that a rule names. -/
def ids : Rule → List RuleId
  | .single rule => rule.captures.ids
  | .group rule => rule.patterns
  | .region rule => rule.startCaptures.ids ++ rule.stopCaptures.ids ++
      rule.patterns
  | .block rule => rule.startCaptures.ids ++
      rule.conditionCaptures.ids ++ rule.patterns
  | .capture rule => rule.retokenize.toList
  | .reserved => []

/-- The patterns of a rule are there, and it is right about the back-references
of its end or its condition. -/
def PatternsFit (patterns : Array CachedPattern) : Rule → Prop
  | .single rule => rule.pattern < patterns.size
  | .region rule => rule.start < patterns.size ∧ rule.stop < patterns.size ∧
      rule.stopHasReferences = patterns[rule.stop]?.any (·.pattern.hasReferences)
  | .block rule => rule.start < patterns.size ∧ rule.condition < patterns.size ∧
      rule.conditionHasReferences = patterns[rule.condition]?.any (·.pattern.hasReferences)
  | .group _ | .capture _ | .reserved => True

@[simp]
theorem isHollow_mapIds (change : RuleId → RuleId) (rule : Rule) :
    (rule.mapIds change).isHollow = rule.isHollow := by
  cases rule <;> simp [mapIds, isHollow]

end Rule

/-- From one state to a later one numbers stay given out, and patterns stay what
they are. -/
structure Later (before after : CompilerState) : Prop where
  size : before.rules.size ≤ after.rules.size
  patterns : ∀ id < before.patterns.size, after.patterns[id]? = before.patterns[id]?

namespace Later

theorem refl (state : CompilerState) : Later state state := ⟨Nat.le_refl _, fun _ _ => rfl⟩

variable {before middle after : CompilerState}

theorem patterns_lt (later : Later before after) {id : PatternId} (bound : id < before.patterns.size) :
    id < after.patterns.size := by
  have held := later.patterns id bound
  rw [Array.getElem?_eq_getElem bound] at held
  exact (Array.getElem?_eq_some_iff.mp held).1

theorem trans (first : Later before middle) (second : Later middle after) : Later before after where
  size := Nat.le_trans first.size second.size
  patterns id bound :=
    (second.patterns id (first.patterns_lt bound)).trans (first.patterns id bound)

/-- The patterns of a rule stay there in later states. -/
theorem patternsFit (later : Later before after) {rule : Rule}
    (fits : rule.PatternsFit before.patterns) : rule.PatternsFit after.patterns := by
  cases rule with
  | single rule => exact later.patterns_lt fits
  | region rule =>
    obtain ⟨start, stop, references⟩ := fits
    exact ⟨later.patterns_lt start, later.patterns_lt stop, by rw [references, later.patterns _ stop]⟩
  | block rule =>
    obtain ⟨start, condition, references⟩ := fits
    exact ⟨later.patterns_lt start, later.patterns_lt condition,
      by rw [references, later.patterns _ condition]⟩
  | group | capture | reserved => trivial

end Later

/-- What can be compiled out of some grammars. -/
def Loaded.keys (loaded : Loaded) : List Key :=
  loaded.values.flatMap fun grammar =>
    ⟨none, grammar.scopeName⟩ ::
      (List.range grammar.rules.size).map fun place => ⟨some place, grammar.scopeName⟩

/-- How much of what can be compiled has no number. -/
def unnumbered (loaded : Loaded) (state : CompilerState) : Nat :=
  loaded.keys.countP fun key => (state.numbers.get? key).isNone

/-- There are as many keys as rules and grammars. -/
theorem length_keys (loaded : Loaded) :
    loaded.keys.length = loaded.ruleCount + loaded.entries.length := by
  have counted (grammars : List GrammarSource) :
      (grammars.flatMap fun grammar => (⟨none, grammar.scopeName⟩ : Key) ::
        (List.range grammar.rules.size).map fun place => ⟨some place, grammar.scopeName⟩).length =
        grammars.foldr (fun grammar count => grammar.rules.size + count) 0 + grammars.length := by
    induction grammars with
    | nil => rfl
    | cons grammar grammars ih =>
      rw [List.flatMap_cons, List.length_append, ih]
      simp
      omega
  rw [Loaded.keys, counted]
  simp [Loaded.ruleCount, Table.values]

/-- Before anything has a number, the depth for some grammars is more than enough. -/
theorem unnumbered_lt_depthFor (loaded : Loaded) (state : CompilerState) :
    unnumbered loaded state < depthFor loaded := by
  have bound := List.countP_le_length (p := fun key => (state.numbers.get? key).isNone)
    (l := loaded.keys)
  rw [length_keys] at bound
  exact Nat.lt_succ_of_le bound

/-- What has no number after one more was given out had none before. -/
theorem isNone_of_insert {state : CompilerState} {key other : Key} {id : RuleId}
    (none : ((state.numbers.insert key id).get? other).isNone = true) :
    (state.numbers.get? other).isNone = true := by
  rw [Dictionary.get?_insert] at none
  split at none
  · cases none
  · exact none

theorem unnumbered_insert_le (loaded : Loaded) (state : CompilerState) (key : Key) (id : RuleId) :
    unnumbered loaded { state with numbers := state.numbers.insert key id } ≤
      unnumbered loaded state :=
  List.countP_mono_left fun _ _ => isNone_of_insert

/-- Giving a number to something that has none leaves less without. -/
theorem unnumbered_insert_lt {loaded : Loaded} {state : CompilerState} {key : Key}
    (member : key ∈ loaded.keys) (fresh : state.numbers.get? key = none) (id : RuleId) :
    unnumbered loaded { state with numbers := state.numbers.insert key id } <
      unnumbered loaded state := by
  have here : ((state.numbers.insert key id).get? key).isNone = false := by
    rw [Dictionary.get?_insert, if_pos rfl]
    rfl
  exact countP_lt_countP (fun _ => isNone_of_insert) member here (Option.isNone_iff_eq_none.mpr fresh)

theorem key_mem_keys {loaded : Loaded} {grammar : GrammarSource} (member : grammar ∈ loaded.values)
    {place : Option Place} (inside : ∀ number, place = some number → number < grammar.rules.size) :
    ⟨place, grammar.scopeName⟩ ∈ loaded.keys := by
  apply List.mem_flatMap.mpr
  refine ⟨grammar, member, ?_⟩
  cases place with
  | none => exact List.mem_cons_self
  | some number =>
    exact List.mem_cons_of_mem _ (List.mem_map.mpr
      ⟨number, List.mem_range.mpr (inside number rfl), rfl⟩)

/-- What a reference stands for, if it can be found: a rule, or the top level of
a grammar, in its context. -/
def Loaded.target (grammars : Loaded) (context : Context) :
    Reference → Option (Context × Option Place)
  | .self => some (.top context.grammar context.base, none)
  | .base => some (.top context.base context.base, none)
  | .inRepository name => (context.lookup name).map fun place => (context, some place)
  | .grammar scopeName =>
    (grammars.get? scopeName).map fun grammar => (.top grammar context.base, none)
  | .inGrammar scopeName name =>
    (grammars.get? scopeName).bind fun grammar =>
      (grammar.repository.bind (·.get? name)).map fun place =>
        (.top grammar context.base, some place)

/-- What a rule in a list stands for: what it refers to, else itself. -/
def Loaded.held (grammars : Loaded) (context : Context) (place : Place) :
    Option (Context × Option Place) :=
  match (context.grammar.rule place).reference with
  | some text => grammars.target context (.ofText text)
  | none => some (context, some place)

namespace RuleSource

def triedPlaces (rule : RuleSource) : List Place :=
  if rule.matchPattern.isSome then [] else rule.patterns.getD []

def captureTables (rule : RuleSource) : List (Option (Table Place)) :=
  [rule.captures, rule.beginCaptures, rule.endCaptures, rule.whileCaptures]

/-- The rules for groups of the matches of a rule. -/
def capturedPlaces (rule : RuleSource) : List Place :=
  rule.captureTables.flatMap fun table => (table.map Table.values).getD []

/-- What a rule without a pattern and without rules inside it refers to. -/
def standsFor (rule : RuleSource) : Option String :=
  if rule.matchPattern.isSome || rule.beginPattern.isSome || rule.patterns.isSome then none
  else rule.reference

end RuleSource

/-- A rule with a condition, put together. -/
def blockOf (rule : RuleSource) (start : PatternId) (startCaptures : CaptureTable)
    (condition : PatternId) (captures : CaptureTable) (compiled : List RuleId × Bool)
    (hasReferences : Bool) : Rule :=
  .block ⟨rule.name, rule.contentName, start, startCaptures, condition, hasReferences, captures,
    compiled.1, compiled.2⟩

/-- A rule with an end, put together. -/
def regionOf (rule : RuleSource) (start : PatternId) (startCaptures : CaptureTable)
    (stop : PatternId) (captures : CaptureTable) (compiled : List RuleId × Bool)
    (hasReferences : Bool) : Rule :=
  .region ⟨rule.name, rule.contentName, start, startCaptures, stop, hasReferences, captures,
    rule.endLast, compiled.1, compiled.2⟩

/-- Following a reference finds its target first, then compiles it, and warns if that gives
nothing. -/
theorem compileReference_eq (recurse : Recurse) (grammars : Loaded) (context : Context)
    (text : String) :
    compileReference recurse grammars context text = (do
      let resolved ← match grammars.target context (.ofText text) with
        | some (inner, place) => some <$> recurse inner place
        | none => pure none
      if resolved.isNone then warn (.unresolvedReference text context.grammar.scopeName)
      return resolved) := by
  unfold compileReference
  cases Reference.ofText text with
  | self => rfl
  | base => rfl
  | inRepository name =>
    simp only [Loaded.target]
    cases context.lookup name <;> rfl
  | grammar scopeName =>
    simp only [Loaded.target]
    cases grammars.get? scopeName <;> rfl
  | inGrammar scopeName name =>
    simp only [Loaded.target]
    cases grammars.get? scopeName with
    | none => rfl
    | some grammar =>
      simp only [Option.bind_some]
      cases grammar.repository.bind (·.get? name) <;> rfl

/-- What two compilations come to in the place of a reference: both to nothing, or
both to something that they compile in step. -/
inductive Matched (Node : Context → Context → Option Place → Prop) :
    Option (Context × Option Place) → Option (Context × Option Place) → Prop where
  | nowhere : Matched Node none none
  | somewhere (node : Node context other place) :
    Matched Node (some (context, place)) (some (other, place))

/-- The injection with another number for its rule. -/
def Injection.mapId (change : RuleId → RuleId) (injection : Injection) : Injection :=
  { injection with rule := change injection.rule }

theorem map_injectionsOf (change : RuleId → RuleId) (selector : String) (rule : RuleId) :
    (injectionsOf selector rule).map (Injection.mapId change) = injectionsOf selector (change rule) := by
  simp [injectionsOf, Injection.mapId]

theorem rule_of_mem_injectionsOf {selector : String} {rule : RuleId} {injection : Injection}
    (member : injection ∈ injectionsOf selector rule) : injection.rule = rule := by
  obtain ⟨parsed, _, rfl⟩ := List.mem_map.mp member
  rfl

/-- Numbers play no part in the order of injections. -/
theorem map_sortInjections (change : RuleId → RuleId) (injections : List Injection) :
    (sortInjections injections).map (Injection.mapId change) =
      sortInjections (injections.map (Injection.mapId change)) :=
  List.map_mergeSort fun _ _ _ _ => rfl

/-- Two compilations, and what they compile in step. -/
structure Lockstep where
  engine : Engine
  left : Loaded
  right : Loaded
  /-- What the other compilation calls what has a number in the one. -/
  rename : RuleId → RuleId
  rename_inj : ∀ id other, rename id = rename other → id = other
  /-- The numbers that rules may name. -/
  Shown : RuleId → Prop
  /-- What both give a number to in step. -/
  Asked : Key → Prop
  /-- The numbers that all else has, in the one compilation and in the other. -/
  kept : Key → Option RuleId
  otherKept : Key → Option RuleId
  /-- What is compiled in step: a rule or a top level, in the context that it has on
  either side. -/
  Node : Context → Context → Option Place → Prop
  asked : Node context other place → Asked ⟨place, context.grammar.scopeName⟩
  scopeName : Node context other place → other.grammar.scopeName = context.grammar.scopeName
  memberLeft : Node context other place → context.grammar ∈ left.values
  memberRight : Node context other place → other.grammar ∈ right.values
  sameRule : Node context other (some number) →
    other.grammar.rule number = context.grammar.rule number
  sameTop : Node context other none → other.grammar.patterns = context.grammar.patterns
  top : Node context other none → ∀ number ∈ context.grammar.patterns,
    other.grammar.rule number = context.grammar.rule number ∧
      Matched Node (left.held context number) (right.held other number)
  tried : Node context other (some number) → ∀ rule, context.grammar.rule number = rule →
    ∀ inner ∈ rule.triedPlaces,
      other.grammar.rule inner = context.grammar.rule inner ∧
      Matched Node (left.held (context.inside rule.repository) inner)
        (right.held (other.inside rule.repository) inner)
  captured : Node context other (some number) → ∀ rule, context.grammar.rule number = rule →
    ∀ inner ∈ rule.capturedPlaces,
      other.grammar.rule inner = context.grammar.rule inner ∧
      ((context.grammar.rule inner).patterns.isSome →
        Node (context.inside rule.repository) (other.inside rule.repository) (some inner))
  standsFor : Node context other (some number) → ∀ rule, context.grammar.rule number = rule →
    ∀ text, rule.standsFor = some text →
      Matched Node (left.target (context.inside rule.repository) (.ofText text))
        (right.target (other.inside rule.repository) (.ofText text))

namespace Lockstep

variable (lockstep : Lockstep)

/-- A number that has been given out and may be named. -/
def Valid (state : CompilerState) (id : RuleId) : Prop :=
  id < state.rules.size ∧ lockstep.Shown id

/-- Two states in step, with enough depth left to compile what has no number. -/
structure Related (depth otherDepth : Nat) (state other : CompilerState) : Prop where
  size : other.rules.size = lockstep.rename state.rules.size
  rules : ∀ id < state.rules.size,
    other.rules[lockstep.rename id]? = state.rules[id]?.map (Rule.mapIds lockstep.rename)
  named : ∀ rule ∈ state.rules, ∀ id ∈ rule.ids, lockstep.Valid state id
  fits : ∀ rule ∈ state.rules, rule.PatternsFit state.patterns
  fresh : ∀ id, state.rules.size ≤ id →
    lockstep.Shown id ∧ lockstep.rename (id + 1) = lockstep.rename id + 1
  numbers : ∀ key, lockstep.Asked key →
    other.numbers.get? key = (state.numbers.get? key).map lockstep.rename
  numbered : ∀ key id, lockstep.Asked key → state.numbers.get? key = some id →
    lockstep.Valid state id
  kept : ∀ key, ¬ lockstep.Asked key → state.numbers.get? key = lockstep.kept key ∧
    other.numbers.get? key = lockstep.otherKept key
  patterns : other.patterns = state.patterns
  journal : other.journal = state.journal
  depth : unnumbered lockstep.left state < depth
  otherDepth : unnumbered lockstep.right other < otherDepth

variable {lockstep} {depth otherDepth : Nat} {origin middle state other : CompilerState}

theorem Valid.later {id : RuleId} (valid : lockstep.Valid state id) (later : Later state middle) :
    lockstep.Valid middle id :=
  ⟨Nat.lt_of_lt_of_le valid.1 later.size, valid.2⟩

variable (lockstep depth otherDepth)

/-- Two computations that go in step from all states after some state: what they
give corresponds, or they fail with the same error, which is not a want of depth. -/
def Pairs (origin : CompilerState) (first : CompileM α) (second : CompileM β) (change : α → β)
    (Good : CompilerState → α → Prop) : Prop :=
  ∀ state other, Later origin state → lockstep.Related depth otherDepth state other →
    Later state (first.run.run state).2 ∧
    lockstep.Related depth otherDepth (first.run.run state).2 (second.run.run other).2 ∧
    (second.run.run other).1 = (first.run.run state).1.map change ∧
    (∀ value, (first.run.run state).1 = .ok value → Good (first.run.run state).2 value) ∧
    (first.run.run state).1 ≠ .error .outOfSteps

variable {lockstep depth otherDepth} {first : CompileM α} {second : CompileM β} {change : α → β}
  {Good : CompilerState → α → Prop}

theorem Pairs.later (pairs : lockstep.Pairs depth otherDepth origin first second change Good)
    (later : Later origin middle) :
    lockstep.Pairs depth otherDepth middle first second change Good :=
  fun state other after related => pairs state other (later.trans after) related

theorem pairs_pure {value : α} {result : β} (same : result = change value)
    (good : ∀ state, Later origin state → Good state value) :
    lockstep.Pairs depth otherDepth origin (pure value) (pure result) change Good := by
  subst same
  exact fun state other later related =>
    ⟨.refl _, related, rfl, by rintro _ ⟨⟩; exact good state later, by rintro ⟨⟩⟩

/-- Two computations in a row go in step if each does; the second may use what holds after the
first. -/
theorem pairs_bind {next : α → CompileM γ} {otherNext : β → CompileM δ} {nextChange : γ → δ}
    {After : CompilerState → γ → Prop}
    (head : lockstep.Pairs depth otherDepth origin first second change Good)
    (tail : ∀ middle value, Later origin middle → Good middle value →
      lockstep.Pairs depth otherDepth middle (next value) (otherNext (change value)) nextChange
        After) :
    lockstep.Pairs depth otherDepth origin (first >>= next) (second >>= otherNext) nextChange
      After := by
  intro state other later related
  obtain ⟨grown, kept, same, good, enough⟩ := head state other later related
  rw [run_bind, run_bind]
  rcases result : first.run.run state with ⟨error | value, middle⟩
  · rw [result] at grown kept same enough
    rcases answer : second.run.run other with ⟨_ | _, last⟩
    · rw [answer] at kept same
      cases same
      exact ⟨grown, kept, rfl, by rintro _ ⟨⟩, fun out => enough (by cases out; rfl)⟩
    · rw [answer] at same
      cases same
  · rw [result] at grown kept same good
    rcases answer : second.run.run other with ⟨_ | _, last⟩
    · rw [answer] at same
      cases same
    · rw [answer] at kept same
      cases same
      obtain ⟨more, rest⟩ := tail middle value (later.trans grown) (good value rfl) middle last
        (.refl _) kept
      exact ⟨grown.trans more, rest⟩

theorem pairs_map {convert : α → γ} {otherConvert : β → δ} {nextChange : γ → δ}
    {After : CompilerState → γ → Prop}
    (head : lockstep.Pairs depth otherDepth origin first second change Good)
    (same : ∀ value, otherConvert (change value) = nextChange (convert value))
    (good : ∀ middle state value, Good middle value → Later middle state →
      After state (convert value)) :
    lockstep.Pairs depth otherDepth origin (convert <$> first) (otherConvert <$> second) nextChange
      After := by
  rw [← bind_pure_comp, ← bind_pure_comp]
  apply pairs_bind head
  intro middle value _ valid
  exact pairs_pure (same value) fun state after => good middle state value valid after

theorem pairs_get {next otherNext : CompilerState → CompileM α} {nextChange : α → α}
    (tail : ∀ state other, Later origin state → lockstep.Related depth otherDepth state other →
      lockstep.Pairs depth otherDepth state (next state) (otherNext other) nextChange Good) :
    lockstep.Pairs depth otherDepth origin (get >>= next) (get >>= otherNext) nextChange Good := by
  intro state other later related
  rw [run_bind, run_bind, run_get, run_get]
  exact tail state other later related state other (.refl _) related

section Lists

variable {body : ι → CompileM α} {otherBody : ι → CompileM β} {items : List ι}

/-- A list is gone through in step if each item is, and if what holds of a result lasts. -/
theorem pairs_mapM (change : α → β) (Good : CompilerState → α → Prop)
    (lasts : ∀ middle state value, Good middle value → Later middle state → Good state value)
    (each : ∀ item ∈ items,
      lockstep.Pairs depth otherDepth origin (body item) (otherBody item) change Good) :
    lockstep.Pairs depth otherDepth origin (items.mapM body) (items.mapM otherBody)
      (List.map change) (fun state values => ∀ value ∈ values, Good state value) := by
  induction items generalizing origin with
  | nil => exact pairs_pure rfl (by simp)
  | cons item items ih =>
    rw [List.mapM_cons, List.mapM_cons]
    apply pairs_bind (each item List.mem_cons_self)
    intro middle value later good
    apply pairs_bind (ih fun item member => (each item (List.mem_cons_of_mem _ member)).later later)
    intro last values after goods
    refine pairs_pure rfl ?_
    intro state final
    rintro found (_ | ⟨_, member⟩)
    · exact lasts _ _ _ good (after.trans final)
    · exact lasts _ _ _ (goods found member) final

/-- The same when items may have no result, in both computations alike. -/
theorem pairs_filterMapM (change : α → β) (Good : CompilerState → α → Prop)
    {body : ι → CompileM (Option α)} {otherBody : ι → CompileM (Option β)}
    (lasts : ∀ middle state value, Good middle value → Later middle state → Good state value)
    (each : ∀ item ∈ items, lockstep.Pairs depth otherDepth origin (body item) (otherBody item)
      (Option.map change) (fun state value => ∀ held ∈ value, Good state held)) :
    lockstep.Pairs depth otherDepth origin (items.filterMapM body) (items.filterMapM otherBody)
      (List.map change) (fun state values => ∀ value ∈ values, Good state value) := by
  induction items generalizing origin with
  | nil => exact pairs_pure rfl (by simp)
  | cons item items ih =>
    rw [List.filterMapM_cons, List.filterMapM_cons]
    apply pairs_bind (each item List.mem_cons_self)
    intro middle value later good
    have rest := ih fun item member => (each item (List.mem_cons_of_mem _ member)).later later
    cases value with
    | none => exact rest
    | some value =>
      apply pairs_bind rest
      intro last values after goods
      refine pairs_pure rfl ?_
      intro state final
      rintro found (_ | ⟨_, member⟩)
      · exact lasts _ _ _ (good value rfl) (after.trans final)
      · exact lasts _ _ _ (goods found member) final

end Lists

section Steps

/-- The rule under a number that has been given out. -/
theorem Related.rename_lt (related : lockstep.Related depth otherDepth state other) {id : RuleId}
    (bound : id < state.rules.size) : lockstep.rename id < other.rules.size := by
  have held := related.rules id bound
  rw [Array.getElem?_eq_getElem bound] at held
  exact (Array.getElem?_eq_some_iff.mp held).1

/-- Reserving a rule on both sides keeps the states in step. -/
theorem Related.reserve (related : lockstep.Related depth otherDepth state other) :
    lockstep.Related depth otherDepth { state with rules := state.rules.push .reserved }
      { other with rules := other.rules.push .reserved } where
  size := by
    rw [Array.size_push, Array.size_push, related.size]
    exact (related.fresh _ (Nat.le_refl _)).2.symm
  rules id bound := by
    rw [Array.size_push] at bound
    rcases Nat.lt_succ_iff_lt_or_eq.mp bound with old | rfl
    · rw [Array.getElem?_push_lt (related.rename_lt old), Array.getElem?_push_lt old,
        ← Array.getElem?_eq_getElem, ← Array.getElem?_eq_getElem]
      exact related.rules id old
    · rw [← related.size]
      simp [Rule.mapIds]
  named rule member id among := by
    rcases Array.mem_push.mp member with old | rfl
    · obtain ⟨bound, shown⟩ := related.named rule old id among
      exact ⟨by simpa using Nat.lt_succ_of_lt bound, shown⟩
    · cases among
  fits rule member := by
    rcases Array.mem_push.mp member with old | rfl
    · exact related.fits rule old
    · trivial
  fresh id above := related.fresh id (by rw [Array.size_push] at above; omega)
  numbers := related.numbers
  numbered key id asked held := by
    obtain ⟨bound, shown⟩ := related.numbered key id asked held
    exact ⟨by simpa using Nat.lt_succ_of_lt bound, shown⟩
  kept := related.kept
  patterns := related.patterns
  journal := related.journal
  depth := related.depth
  otherDepth := related.otherDepth

theorem later_reserve (state : CompilerState) :
    Later state { state with rules := state.rules.push .reserved } :=
  ⟨by simp, fun _ _ => rfl⟩

theorem pairs_reserve : lockstep.Pairs depth otherDepth origin reserve reserve lockstep.rename
    lockstep.Valid := by
  intro state other later related
  refine ⟨later_reserve state, related.reserve, congrArg Except.ok related.size, ?_, by rintro ⟨⟩⟩
  rintro _ ⟨⟩
  have room : state.rules.size < (state.rules.push .reserved).size := by simp
  exact ⟨room, (related.fresh _ (Nat.le_refl _)).1⟩

/-- Putting a rule under its number, and its counterpart under the other, keeps the states in
step. -/
theorem Related.define (related : lockstep.Related depth otherDepth state other) {id : RuleId}
    {rule : Rule} (bound : id < state.rules.size) (named : ∀ id ∈ rule.ids, lockstep.Valid state id)
    (fits : rule.PatternsFit state.patterns) :
    lockstep.Related depth otherDepth { state with rules := state.rules.setIfInBounds id rule }
      { other with
        rules := other.rules.setIfInBounds (lockstep.rename id) (rule.mapIds lockstep.rename) } where
  size := by simpa using related.size
  rules number below := by
    rw [Array.size_setIfInBounds] at below
    by_cases here : id = number
    · subst here
      simp [bound, related.rename_lt bound]
    · rw [Array.getElem?_setIfInBounds_ne here,
        Array.getElem?_setIfInBounds_ne fun same => here (lockstep.rename_inj _ _ same)]
      exact related.rules number below
  named held member id among := by
    rcases Array.mem_or_eq_of_mem_setIfInBounds member with old | rfl
    · simpa [Valid] using related.named held old id among
    · simpa [Valid] using named id among
  fits held member := by
    rcases Array.mem_or_eq_of_mem_setIfInBounds member with old | rfl
    · exact related.fits held old
    · exact fits
  fresh number above := related.fresh number (by simpa using above)
  numbers := related.numbers
  numbered key number asked held := by simpa [Valid] using related.numbered key number asked held
  kept := related.kept
  patterns := related.patterns
  journal := related.journal
  depth := related.depth
  otherDepth := related.otherDepth

theorem pairs_define {id : RuleId} {rule : Rule} (valid : lockstep.Valid origin id)
    (named : ∀ id ∈ rule.ids, lockstep.Valid origin id) (fits : rule.PatternsFit origin.patterns) :
    lockstep.Pairs depth otherDepth origin (define id rule)
      (define (lockstep.rename id) (rule.mapIds lockstep.rename)) (fun _ => ()) fun _ _ => True := by
  intro state other later related
  rw [run_define, run_define]
  exact ⟨⟨by simp, fun _ _ => rfl⟩,
    related.define (valid.later later).1 (fun id among => (named id among).later later)
      (later.patternsFit fits), rfl, fun _ _ => trivial, by rintro ⟨⟩⟩

theorem pairs_warn (warning : Warning) : lockstep.Pairs depth otherDepth origin (warn warning)
    (warn warning) (fun _ => ()) fun _ _ => True := by
  intro state other later related
  exact ⟨⟨Nat.le_refl _, fun _ _ => rfl⟩,
    { related with journal := congrArg (·.warn warning) related.journal }, rfl, fun _ _ => trivial,
    by rintro ⟨⟩⟩

/-- Room for groups depends on the groups alone, so both tables begin alike. -/
theorem pairs_makeRoom (groups : List Nat) : lockstep.Pairs depth otherDepth origin (makeRoom groups)
    (makeRoom groups) (CaptureTable.mapIds lockstep.rename)
    fun _ table => table = CaptureTable.withRoom groups := by
  intro state other later related
  rw [run_makeRoom, run_makeRoom]
  have same : (Except.ok (CaptureTable.withRoom groups) : Except CompileError CaptureTable) =
      (Except.ok (CaptureTable.withRoom groups)).map (CaptureTable.mapIds lockstep.rename) := by
    rw [Except.map, CaptureTable.mapIds_withRoom]
  dsimp only
  split
  · exact ⟨.refl _, related, same, fun _ made => (Except.ok.inj made).symm, by rintro ⟨⟩⟩
  · exact ⟨⟨Nat.le_refl _, fun _ _ => rfl⟩,
      { related with journal := congrArg Journal.overflowed related.journal }, same,
      fun _ made => (Except.ok.inj made).symm, by rintro ⟨⟩⟩

/-- The same pattern added on both sides keeps the states in step, and gets the same number. -/
theorem Related.push (related : lockstep.Related depth otherDepth state other)
    (cached : CachedPattern) (journal : Journal) :
    Later state { state with patterns := state.patterns.push cached, journal := journal } ∧
    lockstep.Related depth otherDepth
      { state with patterns := state.patterns.push cached, journal := journal }
      { other with patterns := other.patterns.push cached, journal := journal } := by
  have later : Later state
      { state with patterns := state.patterns.push cached, journal := journal } := by
    refine ⟨Nat.le_refl _, fun id bound => ?_⟩
    rw [Array.getElem?_push_lt bound, Array.getElem?_eq_getElem]
  refine ⟨later, { related with
    patterns := congrArg (·.push cached) related.patterns
    journal := rfl
    fits := fun rule member => later.patternsFit (related.fits rule member) }⟩

/-- Both compilations give a pattern the same number, or refuse it with the same error. -/
theorem pairs_addPattern (engine : Engine) (text : String) (resolvedLater : Bool) :
    lockstep.Pairs depth otherDepth origin (addPattern engine text resolvedLater)
      (addPattern engine text resolvedLater) (fun id => id)
      fun state id => id < state.patterns.size := by
  intro state other later related
  obtain ⟨rules, patterns, numbers, journal⟩ := other
  obtain rfl : patterns = state.patterns := related.patterns
  obtain rfl : journal = state.journal := related.journal
  rw [run_addPattern, run_addPattern]
  split
  · obtain ⟨grown, kept⟩ := related.push (.ofText text) state.journal
    exact ⟨grown, kept, rfl, by rintro _ ⟨⟩; simp, by rintro ⟨⟩⟩
  · rcases (CachedPattern.ofText text).validate engine state.journal with ⟨_ | cached, journal⟩
    · exact ⟨⟨Nat.le_refl _, fun _ _ => rfl⟩, { related with patterns := rfl, journal := rfl }, rfl,
        by rintro _ ⟨⟩, by rintro ⟨⟩⟩
    · obtain ⟨grown, kept⟩ := related.push cached journal
      exact ⟨grown, kept, rfl, by rintro _ ⟨⟩; simp, by rintro ⟨⟩⟩

end Steps

end Lockstep
end Grammar
end ScopeLexer

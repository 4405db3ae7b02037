import ScopeLexer.Proofs.DependencyCompleteness

/-! The books of the compiler. Everything that has a number is recorded: the context
in which it was compiled, and the rule under its number, which is what its source says
in that context. What a computation adds to the state is recorded when it is over, so
nothing it gave a number to is left without a rule; and when it fails, that is over a
pattern of something with a number that the engine refuses. -/
namespace ScopeLexer

open Grammar Pattern Regex

namespace Regex.Engine

/-- The engine takes a pattern as it is written. -/
def Accepts (engine : Engine) (text : String) : Prop :=
  ∃ searcher, engine.compile (Pattern.ofText text).source = .ok searcher

/-- The engine does not take a pattern as it is written, and says why. -/
def Refuses (engine : Engine) (text reason : String) : Prop :=
  engine.compile (Pattern.ofText text).source = .error reason

theorem Accepts.not_refuses {engine : Engine} (accepts : engine.Accepts text) :
    ¬ engine.Refuses text reason := by
  obtain ⟨searcher, made⟩ := accepts
  intro refused
  cases made.symm.trans refused

end Regex.Engine

namespace Grammar

namespace RuleSource

/-- The pattern that a rule with a start ends by, or goes on by. Without either it is one
that matches nothing. -/
def closing (rule : RuleSource) : String :=
  rule.whilePattern.getD (rule.endPattern.getD (String.singleton Flavour.noChar))

/-- The patterns that a rule needs as they are written: that of its match, or that of its
start and, if there is nothing in it to be resolved, that of its end or condition. -/
def checkedPatterns (rule : RuleSource) : List String :=
  match rule.matchPattern, rule.beginPattern with
  | some text, _ => [text]
  | none, some start =>
    start :: if (Pattern.ofText rule.closing).hasReferences then [] else [rule.closing]
  | none, none => []

/-- The rules for groups, by group. -/
def groups (captures : Option (Table Place)) : List (Nat × Place) :=
  ((captures.map Table.entries).getD []).filterMap fun (key, place) =>
    (groupOfKey? key).map fun group => (group, place)

theorem place_of_mem_groups {captures : Option (Table Place)} (member : entry ∈ groups captures) :
    entry.2 ∈ (captures.map Table.values).getD [] := by
  obtain ⟨⟨key, place⟩, among, named⟩ := List.mem_filterMap.mp member
  obtain ⟨group, _, rfl⟩ := Option.map_eq_some_iff.mp named
  cases captures with
  | none => cases among
  | some table => exact List.mem_map.mpr ⟨_, among, rfl⟩

end RuleSource

/-- What is needed as it is written of something that is compiled. -/
def Context.checkedPatterns (context : Context) : Option Place → List String
  | some place => (context.grammar.rule place).checkedPatterns
  | none => []

/-- What stays when more is compiled: numbers, patterns, and rules that are finished. -/
structure Carries (before after : CompilerState) : Prop where
  numbers : ∀ key id, before.numbers.get? key = some id → after.numbers.get? key = some id
  patterns : ∀ (id : PatternId) pattern, before.patterns[id]? = some pattern →
    after.patterns[id]? = some pattern
  rules : ∀ (id : RuleId) rule, before.rules[id]? = some rule → rule ≠ .reserved →
    after.rules[id]? = some rule

theorem Carries.refl (state : CompilerState) : Carries state state :=
  ⟨fun _ _ given => given, fun _ _ held => held, fun _ _ held _ => held⟩

theorem Carries.trans (first : Carries before middle) (second : Carries middle after) :
    Carries before after where
  numbers key id given := second.numbers key id (first.numbers key id given)
  patterns id pattern held := second.patterns id pattern (first.patterns id pattern held)
  rules id rule held finished := second.rules id rule (first.rules id rule held finished) finished

/-- A rule is put behind the others. -/
theorem Carries.push (state : CompilerState) (rule : Rule) :
    Carries state { state with rules := state.rules.push rule } := by
  refine ⟨fun _ _ given => given, fun _ _ held => held, fun id other found _ => ?_⟩
  have below := (Array.getElem?_eq_some_iff.mp found).1
  rw [Array.getElem?_push_lt below, ← Array.getElem?_eq_getElem below, found]

section

variable {grammars : Loaded} {before after state : CompilerState} {context : Context} {id : Nat}

/-- The number of what a reference or a rule leads to. -/
def CompilerState.numberOf (state : CompilerState) (node : Context × Option Place) : Option RuleId :=
  state.numbers.get? ⟨node.2, node.1.grammar.scopeName⟩

theorem Carries.numberOf (carries : Carries before after)
    (numbered : before.numberOf node = some id) : after.numberOf node = some id :=
  carries.numbers _ _ numbered

/-- Only numbers that have been given out are in use, and no two things have the same. -/
structure CompilerState.Distinct (state : CompilerState) : Prop where
  bounded : ∀ key id, state.numbers.get? key = some id → id < state.rules.size
  injective : ∀ key other id, state.numbers.get? key = some id →
    state.numbers.get? other = some id → key = other

theorem CompilerState.Distinct.mono (distinct : before.Distinct)
    (numbers : after.numbers = before.numbers) (size : before.rules.size ≤ after.rules.size) :
    after.Distinct where
  bounded key id given := Nat.lt_of_lt_of_le (distinct.bounded key id (numbers ▸ given)) size
  injective key other id given also := by
    rw [numbers] at given also
    exact distinct.injective key other id given also

/-- A pattern with a text has its number. -/
def CompilerState.Keeps (state : CompilerState) (id : PatternId) (text : String) : Prop :=
  ∃ cached, state.patterns[id]? = some cached ∧ cached.pattern = .ofText text

theorem Carries.keeps (carries : Carries before after) (keeps : before.Keeps id text) :
    after.Keeps id text := by
  obtain ⟨cached, held, same⟩ := keeps
  exact ⟨cached, carries.patterns _ _ held, same⟩

/-- The numbers of what the rules of a list lead to. What cannot be found is left out, and
so is what nothing is left of. -/
inductive Listed (grammars : Loaded) (state : CompilerState) (context : Context) :
    List Place → List RuleId → Prop where
  | nil : Listed grammars state context [] []
  | missing (lost : grammars.held context place = none)
    (rest : Listed grammars state context places ids) :
    Listed grammars state context (place :: places) ids
  | hollow {id : RuleId} {rule : Rule} (found : grammars.held context place = some node)
    (numbered : state.numberOf node = some id) (made : state.rules[id]? = some rule)
    (hollow : rule.isHollow = true) (rest : Listed grammars state context places ids) :
    Listed grammars state context (place :: places) ids
  | kept {id : RuleId} (found : grammars.held context place = some node)
    (numbered : state.numberOf node = some id)
    (rest : Listed grammars state context places ids) :
    Listed grammars state context (place :: places) (id :: ids)

theorem ne_reserved_of_isHollow {rule : Rule} (hollow : rule.isHollow = true) : rule ≠ .reserved := by
  rintro rfl
  cases hollow

theorem Listed.carry (listed : Listed grammars before context places ids)
    (carries : Carries before after) : Listed grammars after context places ids := by
  induction listed with
  | nil => exact .nil
  | missing lost _ ih => exact .missing lost ih
  | hollow found numbered made hollow _ ih =>
    exact .hollow found (carries.numberOf numbered)
      (carries.rules _ _ made (ne_reserved_of_isHollow hollow)) hollow ih
  | kept found numbered _ ih => exact .kept found (carries.numberOf numbered) ih

/-- A rule of a list is left out if it leads nowhere, or to what nothing is left of. -/
theorem Listed.cons {place : Place} {resolved : Option RuleId}
    (reached : Option.Rel (fun node id => before.numberOf node = some id)
      (grammars.held context place) resolved) (carries : Carries before after)
    (rest : Listed grammars after context places ids) :
    Listed grammars after context (place :: places)
      ((resolved.filter fun id => !(before.rules[id]?.getD .reserved).isHollow).toList ++ ids) := by
  generalize found : grammars.held context place = target at reached
  cases reached with
  | none => exact .missing found rest
  | @some node id numbered =>
    have numbered := carries.numberOf numbered
    rw [Option.filter_some]
    split
    next => exact .kept found numbered rest
    next hollow =>
      -- Only a finished rule is hollow, and that stays.
      cases made : before.rules[id]? with
      | none =>
        rw [made] at hollow
        exact absurd rfl hollow
      | some rule =>
        rw [made] at hollow
        have hollow : rule.isHollow = true := by simpa using hollow
        exact .hollow found numbered (carries.rules id rule made (ne_reserved_of_isHollow hollow))
          hollow rest

/-- Whatever stands in a list has its number. -/
theorem Listed.numbered (listed : Listed grammars state context places ids) (member : id ∈ ids) :
    ∃ place ∈ places, ∃ node, grammars.held context place = some node ∧
      state.numberOf node = some id := by
  induction listed with
  | nil => cases member
  | missing _ _ ih | hollow _ _ _ _ _ ih =>
    obtain ⟨place, among, node, leads⟩ := ih member
    exact ⟨place, List.mem_cons_of_mem _ among, node, leads⟩
  | kept found numbered _ ih =>
    rcases List.mem_cons.mp member with rfl | member
    · exact ⟨_, List.mem_cons_self, _, found, numbered⟩
    · obtain ⟨place, among, node, leads⟩ := ih member
      exact ⟨place, List.mem_cons_of_mem _ among, node, leads⟩

/-- The rule for a group that a source stands for. The text of a group with patterns of its
own is tokenized again with the rule that the source is compiled to. -/
inductive Captures (state : CompilerState) (context : Context) (place : Place) :
    CaptureRule → Prop where
  | plain (without : (context.grammar.rule place).patterns = none) :
    Captures state context place
      ⟨(context.grammar.rule place).name, (context.grammar.rule place).contentName, none⟩
  | again {id : RuleId} (within : (context.grammar.rule place).patterns.isSome)
    (numbered : state.numberOf (context, some place) = some id) :
    Captures state context place
      ⟨(context.grammar.rule place).name, (context.grammar.rule place).contentName, some id⟩

theorem Captures.carry (captures : Captures before context place rule)
    (carries : Carries before after) : Captures after context place rule := by
  cases captures with
  | plain without => exact .plain without
  | again within numbered => exact .again within (carries.numberOf numbered)

/-- A rule for a group is under its number. -/
def Slotted (state : CompilerState) (context : Context) (entry : Nat × Place) (slot : Nat × RuleId) :
    Prop :=
  slot.1 = entry.1 ∧ ∃ rule, state.rules[slot.2]? = some (.capture rule) ∧
    Captures state context entry.2 rule

theorem Slotted.carry (slotted : Slotted before context entry slot)
    (carries : Carries before after) : Slotted after context entry slot := by
  obtain ⟨same, rule, held, captures⟩ := slotted
  exact ⟨same, rule, carries.rules _ _ held (by rintro ⟨⟩), captures.carry carries⟩

/-- The rules for groups that a source has, each under its number. Of two for one group the
later one counts. -/
inductive Tabled (state : CompilerState) (context : Context) (captures : Option (Table Place)) :
    CaptureTable → Prop where
  | filled {slots : List (Nat × RuleId)}
    (slotted : List.Forall₂ (Slotted state context) (RuleSource.groups captures) slots) :
    Tabled state context captures
      ((CaptureTable.withRoom ((RuleSource.groups captures).map Prod.fst)).fill slots)

theorem Tabled.carry (tabled : Tabled before context captures table)
    (carries : Carries before after) : Tabled after context captures table := by
  obtain ⟨slotted⟩ := tabled
  exact .filled (slotted.imp fun _ _ slotted => slotted.carry carries)

/-- What stands in a filled table are rules for groups. -/
theorem Tabled.slot (tabled : Tabled state context captures table) (member : id ∈ table.ids) :
    ∃ rule, state.rules[id]? = some (.capture rule) := by
  obtain @⟨slots, slotted⟩ := tabled
  have among : id ∈ slots.map Prod.snd :=
    (CaptureTable.mem_ids_fill member).resolve_left CaptureTable.not_mem_ids_withRoom
  clear member
  generalize RuleSource.groups captures = entries at slotted
  induction slotted with
  | nil => cases among
  | cons slotted _ ih =>
    rcases List.mem_cons.mp among with rfl | among
    · obtain ⟨_, rule, made, _⟩ := slotted
      exact ⟨rule, made⟩
    · exact ih among

/-- A rule is what its source says. `context` is inside the rule. -/
inductive Spelled (grammars : Loaded) (state : CompilerState) (context : Context)
    (source : RuleSource) : Rule → Prop where
  | single {id : PatternId} (isMatch : source.matchPattern = some text) (pattern : state.Keeps id text)
    (captures : Tabled state context source.captures table) :
    Spelled grammars state context source (.single ⟨source.name, id, table⟩)
  | block {id : PatternId} (noMatch : source.matchPattern = none)
    (isStart : source.beginPattern = some text)
    (isCondition : source.whilePattern = some conditionText)
    (start : state.Keeps startId text)
    (startCaptures : Tabled state context
      (source.beginCaptures.orElse fun _ => source.captures) startTable)
    (condition : state.Keeps id conditionText)
    (captures : Tabled state context (source.whileCaptures.orElse fun _ => source.captures) table)
    (inside : Listed grammars state context (source.patterns.getD []) ids) :
    Spelled grammars state context source (blockOf source startId startTable id table
      (ids, decide (ids.length ≠ (source.patterns.getD []).length))
      (Pattern.ofText conditionText).hasReferences)
  | region {id : PatternId} (noMatch : source.matchPattern = none)
    (isStart : source.beginPattern = some text)
    (noCondition : source.whilePattern = none)
    (start : state.Keeps startId text)
    (startCaptures : Tabled state context
      (source.beginCaptures.orElse fun _ => source.captures) startTable)
    (stop : state.Keeps id (source.endPattern.getD (String.singleton Flavour.noChar)))
    (captures : Tabled state context (source.endCaptures.orElse fun _ => source.captures) table)
    (inside : Listed grammars state context (source.patterns.getD []) ids) :
    Spelled grammars state context source (regionOf source startId startTable id table
      (ids, decide (ids.length ≠ (source.patterns.getD []).length))
      (Pattern.ofText (source.endPattern.getD (String.singleton Flavour.noChar))).hasReferences)
  | renamed {id : RuleId} (refers : source.standsFor = some text)
    (found : grammars.target context (.ofText text) = some node)
    (numbered : state.numberOf node = some id) :
    Spelled grammars state context source (.group ⟨source.name, source.contentName, [id], false⟩)
  | lost (refers : source.standsFor = some text)
    (missing : grammars.target context (.ofText text) = none) :
    Spelled grammars state context source (.group ⟨source.name, source.contentName, [], true⟩)
  | group (noMatch : source.matchPattern = none) (noStart : source.beginPattern = none)
    (noReference : source.standsFor = none)
    (inside : Listed grammars state context (source.patterns.getD []) ids) :
    Spelled grammars state context source (.group ⟨source.name, source.contentName, ids,
      decide (ids.length ≠ (source.patterns.getD []).length)⟩)

/-- What a rule is spelled as stays right in later states. -/
theorem Spelled.carry {source : RuleSource}
    (spelled : Spelled grammars before context source rule) (carries : Carries before after) :
    Spelled grammars after context source rule := by
  cases spelled with
  | single isMatch pattern captures =>
    exact .single isMatch (carries.keeps pattern) (captures.carry carries)
  | block noMatch isStart isCondition start startCaptures condition captures inside =>
    exact .block noMatch isStart isCondition (carries.keeps start) (startCaptures.carry carries)
      (carries.keeps condition) (captures.carry carries) (inside.carry carries)
  | region noMatch isStart noCondition start startCaptures stop captures inside =>
    exact .region noMatch isStart noCondition (carries.keeps start) (startCaptures.carry carries)
      (carries.keeps stop) (captures.carry carries) (inside.carry carries)
  | renamed refers found numbered => exact .renamed refers found (carries.numberOf numbered)
  | lost refers missing => exact .lost refers missing
  | group noMatch noStart noReference inside =>
    exact .group noMatch noStart noReference (inside.carry carries)

/-- What something compiled in a context comes to. -/
inductive Made (grammars : Loaded) (state : CompilerState) (context : Context) :
    Option Place → Rule → Prop where
  | top (inside : Listed grammars state context context.grammar.patterns ids) :
    Made grammars state context none (.group ⟨some context.grammar.scopeName, none, ids,
      decide (ids.length ≠ context.grammar.patterns.length)⟩)
  | written {rule : Rule} (spelled : Spelled grammars state
      (context.inside (context.grammar.rule place).repository) (context.grammar.rule place) rule) :
    Made grammars state context (some place) rule

theorem Made.carry (made : Made grammars before context place rule)
    (carries : Carries before after) : Made grammars after context place rule := by
  cases made with
  | top inside => exact .top (inside.carry carries)
  | written spelled => exact .written (spelled.carry carries)

theorem Made.ne_reserved (made : Made grammars state context place rule) : rule ≠ .reserved := by
  cases made with
  | top inside => rintro ⟨⟩
  | written spelled => cases spelled <;> rintro ⟨⟩

end

/-- A compilation of a grammar: the grammars at hand, the one that is compiled, those
injected into it, and the engine. -/
structure Course where
  grammars : Loaded
  base : GrammarSource
  injectors : List String
  engine : Engine

namespace Course

/-- What the compilation comes by. -/
def Visits (course : Course) (context : Context) (place : Option Place) : Prop :=
  Grammar.Visits course.grammars course.base course.injectors context place

/-- What has a number, with the rule under it. -/
structure Records (course : Course) (state : CompilerState) (context : Context)
    (place : Option Place) (id : RuleId) : Prop where
  visits : course.Visits context place
  numbered : state.numberOf (context, place) = some id
  made : ∃ rule, state.rules[id]? = some rule ∧ Made course.grammars state context place rule
  accepts : ∀ text ∈ context.checkedPatterns place, course.engine.Accepts text

variable {course : Course} {before middle after state : CompilerState} {context inner : Context}
  {place : Option Place} {id : RuleId}

theorem Records.carry (records : course.Records before context place id)
    (carries : Carries before after) : course.Records after context place id where
  visits := records.visits
  numbered := carries.numberOf records.numbered
  made := by
    obtain ⟨rule, held, made⟩ := records.made
    exact ⟨rule, carries.rules _ _ held made.ne_reserved, made.carry carries⟩
  accepts := records.accepts

/-- A rule for a group, with the number of what its text is tokenized again with. -/
def Captured (state : CompilerState) (id : RuleId) : Prop :=
  ∃ rule, state.rules[id]? = some (.capture rule) ∧
    ∀ inner ∈ rule.retokenize, ∃ key, state.numbers.get? key = some inner

theorem Captured.carry (captured : Captured before id) (carries : Carries before after) :
    Captured after id := by
  obtain ⟨rule, held, numbered⟩ := captured
  refine ⟨rule, carries.rules _ _ held (by rintro ⟨⟩), fun inner member => ?_⟩
  obtain ⟨key, given⟩ := numbered inner member
  exact ⟨key, carries.numbers _ _ given⟩

/-- What has been compiled between two states: what was there stays, and whatever is new
is recorded. -/
structure Extends (course : Course) (before after : CompilerState) : Prop where
  size : before.rules.size ≤ after.rules.size
  rules : ∀ id < before.rules.size, after.rules[id]? = before.rules[id]?
  numbers : ∀ key id, before.numbers.get? key = some id → after.numbers.get? key = some id
  patterns : ∀ (id : PatternId) pattern, before.patterns[id]? = some pattern →
    after.patterns[id]? = some pattern
  recorded : ∀ key id, after.numbers.get? key = some id → before.numbers.get? key = some id ∨
    ∃ context, key.scopeName = context.grammar.scopeName ∧ course.Records after context key.place id
  covered : ∀ id, before.rules.size ≤ id → id < after.rules.size →
    (∃ context place, course.Records after context place id) ∨ Captured after id
  distinct : before.Distinct → after.Distinct

namespace Extends

theorem carries (extended : course.Extends before after) : Carries before after where
  numbers := extended.numbers
  patterns := extended.patterns
  rules id rule held _ := by
    rw [extended.rules id (Array.getElem?_eq_some_iff.mp held).1, held]

/-- Nothing is compiled. -/
theorem idle (rules : after.rules = before.rules) (numbers : after.numbers = before.numbers)
    (patterns : ∀ (id : PatternId) pattern, before.patterns[id]? = some pattern →
      after.patterns[id]? = some pattern) : course.Extends before after where
  size := Nat.le_of_eq (congrArg Array.size rules.symm)
  rules _ _ := by rw [rules]
  numbers key id given := by rw [numbers, given]
  patterns := patterns
  recorded key id given := .inl (by rw [← numbers, given])
  covered id above below := by
    rw [rules] at below
    omega
  distinct distinct := distinct.mono numbers (Nat.le_of_eq (congrArg Array.size rules.symm))

theorem refl (state : CompilerState) : course.Extends state state :=
  .idle rfl rfl fun _ _ held => held

/-- States that extend one another in turn extend one another. -/
theorem trans (first : course.Extends before middle) (second : course.Extends middle after) :
    course.Extends before after where
  size := Nat.le_trans first.size second.size
  rules id bound :=
    (second.rules id (Nat.lt_of_lt_of_le bound first.size)).trans (first.rules id bound)
  numbers key id given := second.numbers key id (first.numbers key id given)
  patterns id pattern held := second.patterns id pattern (first.patterns id pattern held)
  recorded key id given := by
    rcases second.recorded key id given with given | recorded
    · rcases first.recorded key id given with given | ⟨context, same, records⟩
      · exact .inl given
      · exact .inr ⟨context, same, records.carry second.carries⟩
    · exact .inr recorded
  covered id above below := by
    by_cases early : id < middle.rules.size
    · rcases first.covered id above early with ⟨context, place, records⟩ | captured
      · exact .inl ⟨context, place, records.carry second.carries⟩
      · exact .inr (captured.carry second.carries)
    · exact second.covered id (Nat.le_of_not_lt early) below
  distinct distinct := second.distinct (first.distinct distinct)

end Extends

/-- How a compilation fails: the engine refuses a pattern of something with a number, or
the depth is not enough. -/
inductive Fails (course : Course) (state : CompilerState) : CompileError → Prop where
  | refused {context : Context} {place : Option Place} (visits : course.Visits context place)
    (numbered : (state.numberOf (context, place)).isSome)
    (member : text ∈ context.checkedPatterns place)
    (refuses : course.engine.Refuses text reason) : Fails course state (.invalidPattern text reason)
  | outOfSteps : Fails course state .outOfSteps

/-- What a computation comes to from a state. -/
def Runs (course : Course) (state : CompilerState) (compute : CompileM α)
    (Post : CompilerState → α → Prop) : Prop :=
  match compute.run.run state with
  | (.ok value, after) => course.Extends state after ∧ Post after value
  | (.error error, after) => course.Fails after error

variable {P : CompilerState → α → Prop} {Q : CompilerState → β → Prop}

theorem runs_pure {value : α} (post : P state value) : course.Runs state (pure value) P :=
  ⟨.refl state, post⟩

/-- Two computations in a row: what the first establishes is there for the second. -/
theorem runs_bind {first : CompileM α} {next : α → CompileM β}
    (head : course.Runs state first P)
    (tail : ∀ middle value, course.Extends state middle → P middle value →
      course.Runs middle (next value) Q) : course.Runs state (first >>= next) Q := by
  unfold Runs at head ⊢
  rw [run_bind]
  rcases result : first.run.run state with ⟨error | value, middle⟩
  · rw [result] at head
    exact head
  · rw [result] at head
    obtain ⟨extended, post⟩ := head
    have rest := tail middle value extended post
    unfold Runs at rest
    simp only
    rcases last : (next value).run.run middle with ⟨error | answer, after⟩
    · rw [last] at rest
      exact rest
    · rw [last] at rest
      exact ⟨extended.trans rest.1, rest.2⟩

theorem Runs.weaken {compute : CompileM α} {R : CompilerState → α → Prop}
    (runs : course.Runs state compute P)
    (weaker : ∀ after value, course.Extends state after → P after value → R after value) :
    course.Runs state compute R := by
  unfold Runs at runs ⊢
  rcases result : compute.run.run state with ⟨error | value, after⟩
  · rw [result] at runs
    exact runs
  · rw [result] at runs
    exact ⟨runs.1, weaker after value runs.1 runs.2⟩

theorem runs_get {next : CompilerState → CompileM β} (tail : course.Runs state (next state) Q) :
    course.Runs state (get >>= next) Q := by
  unfold Runs at tail ⊢
  rw [run_bind, run_get]
  exact tail

theorem runs_map {first : CompileM α} (change : α → β) (head : course.Runs state first P)
    (kept : ∀ after value, P after value → Q after (change value)) :
    course.Runs state (change <$> first) Q := by
  rw [← bind_pure_comp]
  exact runs_bind head fun middle value _ post => runs_pure (kept middle value post)

theorem runs_warn (warning : Warning) : course.Runs state (warn warning) fun _ _ => True :=
  ⟨.idle rfl rfl fun _ _ held => held, trivial⟩

theorem runs_makeRoom (groups : List Nat) :
    course.Runs state (makeRoom groups) fun _ table => table = CaptureTable.withRoom groups := by
  unfold Runs
  rw [run_makeRoom]
  refine ⟨?_, rfl⟩
  split
  · exact .idle rfl rfl fun _ _ held => held
  · exact .idle rfl rfl fun _ _ held => held

/-- What each item of a list comes to, in the end. -/
theorem runs_mapM {items : List ι} {body : ι → CompileM α}
    {R : CompilerState → ι → α → Prop}
    (carry : ∀ before after item value, Carries before after → R before item value →
      R after item value)
    (each : ∀ item ∈ items, ∀ state, course.Runs state (body item) (R · item))
    (state : CompilerState) :
    course.Runs state (items.mapM body) fun after values =>
      List.Forall₂ (R after) items values := by
  induction items generalizing state with
  | nil => exact runs_pure .nil
  | cons item items ih =>
    rw [List.mapM_cons]
    apply runs_bind (each item List.mem_cons_self state)
    intro middle value _ first
    apply runs_bind (ih (fun other member => each other (List.mem_cons_of_mem _ member)) middle)
    intro last values extended rest
    exact runs_pure (.cons (carry _ _ _ _ extended.carries first) rest)

/-- A pattern gets the next number. If it is needed as it is written, the engine takes it. -/
theorem runs_addPattern (visits : course.Visits context place)
    (numbered : (state.numberOf (context, place)).isSome) {resolvedLater : Bool}
    (member : (resolvedLater && (Pattern.ofText text).hasReferences) = false →
      text ∈ context.checkedPatterns place) :
    course.Runs state (addPattern course.engine text resolvedLater) fun after id =>
      after.Keeps id text ∧ ((resolvedLater && (Pattern.ofText text).hasReferences) = false →
        course.engine.Accepts text) := by
  have pushed (cached : CachedPattern) (id : PatternId) (pattern : CachedPattern)
      (held : state.patterns[id]? = some pattern) :
      (state.patterns.push cached)[id]? = some pattern := by
    have bound := (Array.getElem?_eq_some_iff.mp held).1
    rw [Array.getElem?_push_lt bound, ← Array.getElem?_eq_getElem bound, held]
  unfold Runs
  rw [run_addPattern]
  by_cases later : (resolvedLater && (Pattern.ofText text).hasReferences) = true
  · rw [if_pos later]
    refine ⟨.idle rfl rfl (pushed _), ⟨_, Array.getElem?_push_size, rfl⟩, fun needed => ?_⟩
    rw [later] at needed
    cases needed
  · rw [if_neg later, CachedPattern.validate]
    have needed := member (by simpa using later)
    cases answer : course.engine.compile (CachedPattern.ofText text).pattern.source with
    | ok searcher =>
      exact ⟨.idle rfl rfl (pushed _), ⟨_, Array.getElem?_push_size, rfl⟩, fun _ => ⟨_, answer⟩⟩
    | error reason => exact .refused visits numbered needed answer

namespace Visits

theorem captured {number inner : Place} (visits : course.Visits context (some number))
    (member : inner ∈ (context.grammar.rule number).capturedPlaces) :
    course.Visits (context.inside (context.grammar.rule number).repository) (some inner) :=
  .opened visits (.captured member)

theorem tried {number inner : Place} {node : Context × Option Place}
    (visits : course.Visits context (some number))
    (member : inner ∈ (context.grammar.rule number).triedPlaces)
    (found : course.grammars.held (context.inside (context.grammar.rule number).repository) inner =
      some node) : course.Visits node.1 node.2 := by
  unfold Loaded.held at found
  split at found
  next refers => exact .referred visits (.tried member refers) found
  next plain =>
    cases found
    exact .opened visits (.tried member plain)

theorem listed {inner : Place} {node : Context × Option Place} (visits : course.Visits context none)
    (member : inner ∈ context.grammar.patterns)
    (found : course.grammars.held context inner = some node) : course.Visits node.1 node.2 := by
  unfold Loaded.held at found
  split at found
  next refers => exact .referred visits (.top member refers) found
  next plain =>
    cases found
    exact .opened visits (.top member plain)

theorem standsFor {number : Place} {node : Context × Option Place}
    (visits : course.Visits context (some number))
    (refers : (context.grammar.rule number).standsFor = some text)
    (found : course.grammars.target (context.inside (context.grammar.rule number).repository)
      (.ofText text) = some node) : course.Visits node.1 node.2 :=
  .referred visits (.standsFor refers) found

end Visits

end Course

end Grammar
end ScopeLexer

import ScopeLexer.Proofs.RuleLedger

/-! The graph of compiled rules. No number is left without a rule, and numbers lead
where they should: lists hold rules that can be tried, the groups of a match have rules
for groups, and what is tokenized again is tokenized with a rule that can be tried.
Patterns that rules name are there. A compilation always comes to an end, and there is
one reason for it to fail: the engine refuses a pattern of a rule that it has come to. -/
namespace ScopeLexer

open Grammar Pattern Regex

namespace Grammar.Rule

/-- The rule can be tried, or holds rules that can. -/
def canBeTried : Rule → Bool
  | .single _ | .group _ | .region _ | .block _ => true
  | .capture _ | .reserved => false

def isForGroup : Rule → Bool
  | .capture _ => true
  | .single _ | .group _ | .region _ | .block _ | .reserved => false

/-- The rules for the groups of the matches of a rule. -/
def groupRules : Rule → List RuleId
  | .single rule => rule.captures.ids
  | .region rule => rule.startCaptures.ids ++ rule.stopCaptures.ids
  | .block rule =>
    rule.startCaptures.ids ++ rule.conditionCaptures.ids
  | .group _ | .capture _ | .reserved => []

/-- The rule with which the text of a group is tokenized again. -/
def retokenize : Rule → Option RuleId
  | .capture rule => rule.retokenize
  | .single _ | .group _ | .region _ | .block _ | .reserved => none

def patternIds : Rule → List PatternId
  | .single rule => [rule.pattern]
  | .region rule => [rule.start, rule.stop]
  | .block rule => [rule.start, rule.condition]
  | .group _ | .capture _ | .reserved => []

end Grammar.Rule

namespace CompiledGrammar

/-- A number leads to a rule that can be tried. -/
def Tries (grammar : CompiledGrammar) (id : RuleId) : Prop :=
  id < grammar.rules.size ∧ (grammar.rule id).canBeTried = true

/-- A number leads to a rule for a group. -/
def ForGroup (grammar : CompiledGrammar) (id : RuleId) : Prop :=
  id < grammar.rules.size ∧ (grammar.rule id).isForGroup = true

instance (grammar : CompiledGrammar) (id : RuleId) : Decidable (grammar.Tries id) :=
  inferInstanceAs (Decidable (_ ∧ _))

instance (grammar : CompiledGrammar) (id : RuleId) : Decidable (grammar.ForGroup id) :=
  inferInstanceAs (Decidable (_ ∧ _))

/-- Every number has its rule, and numbers lead where they should. -/
structure WellFormed (grammar : CompiledGrammar) : Prop where
  finished : ∀ id < grammar.rules.size, grammar.rule id ≠ .reserved
  listed : ∀ rule ∈ grammar.rules, ∀ id ∈ rule.patterns, grammar.Tries id
  grouped : ∀ rule ∈ grammar.rules, ∀ id ∈ rule.groupRules, grammar.ForGroup id
  retokenized : ∀ rule ∈ grammar.rules, ∀ id ∈ rule.retokenize, grammar.Tries id
  injected : ∀ injection ∈ grammar.injections, grammar.Tries injection.rule
  root : grammar.Tries grammar.root
  patterns : ∀ rule ∈ grammar.rules, ∀ id ∈ rule.patternIds, id < grammar.patterns.size

end CompiledGrammar

namespace Grammar

variable {grammars : Loaded} {state : CompilerState} {context : Context} {rule : Rule} {id : Nat}

theorem Made.canBeTried (made : Made grammars state context place rule) : rule.canBeTried = true := by
  cases made with
  | top => rfl
  | written spelled => cases spelled <;> rfl

/-- What a rule tries inside has been given its number. -/
theorem Made.listed (made : Made grammars state context place rule) (member : id ∈ rule.patterns) :
    ∃ node, state.numberOf node = some id := by
  have among {inner : Context} {places : List Place} {ids : List RuleId}
      (listed : Listed grammars state inner places ids) (member : id ∈ ids) :
      ∃ node, state.numberOf node = some id := by
    obtain ⟨_, _, node, _, numbered⟩ := listed.numbered member
    exact ⟨node, numbered⟩
  cases made with
  | top inside => exact among inside member
  | written spelled =>
    cases spelled with
    | single => cases member
    | block _ _ _ _ _ _ _ inside => exact among inside member
    | region _ _ _ _ _ _ _ inside => exact among inside member
    | renamed _ _ numbered =>
      rw [List.mem_singleton.mp member]
      exact ⟨_, numbered⟩
    | lost => cases member
    | group _ _ _ inside => exact among inside member

/-- What a rule has for its groups are rules for groups. -/
theorem Made.grouped (made : Made grammars state context place rule)
    (member : id ∈ rule.groupRules) : ∃ held, state.rules[id]? = some (.capture held) := by
  have among {inner : Context} {captures : Option (Table Place)} {table : CaptureTable}
      (tabled : Tabled state inner captures table) (member : id ∈ table.ids) :
      ∃ held, state.rules[id]? = some (.capture held) := tabled.slot member
  cases made with
  | top => cases member
  | written spelled =>
    cases spelled with
    | single _ _ captures => exact among captures member
    | block _ _ _ _ starts _ captures | region _ _ _ _ starts _ captures =>
      rcases List.mem_append.mp member with member | member
      · exact among starts member
      · exact among captures member
    | renamed | lost | group => cases member

/-- What a rule matches with is among the patterns. -/
theorem Made.patterns (made : Made grammars state context place rule)
    (member : id ∈ rule.patternIds) : id < state.patterns.size := by
  have bound {id : PatternId} {text : String} (keeps : state.Keeps id text) :
      id < state.patterns.size := by
    obtain ⟨_, held, _⟩ := keeps
    exact (Array.getElem?_eq_some_iff.mp held).1
  cases made with
  | top => cases member
  | written spelled =>
    cases spelled with
    | single _ pattern =>
      rw [List.mem_singleton.mp member]
      exact bound pattern
    | block _ _ _ start _ closing | region _ _ _ start _ closing =>
      simp only [Rule.patternIds, blockOf, regionOf, List.mem_cons, List.not_mem_nil, or_false] at member
      rcases member with rfl | rfl
      · exact bound start
      · exact bound closing
    | renamed | lost | group => cases member

namespace Course

variable {course : Course} {compilation : Compilation} {final : CompilerState}

/-- The rule of an injection has its number. -/
theorem number_of_declared {injection : Injection}
    (member : injection ∈ course.declaredInjections state) :
    ∃ node, state.numberOf node = some injection.rule := by
  have at_node {node : Context × Option Place} {selector : String}
      (member : injection ∈ injectedAt state node selector) :
      ∃ node, state.numberOf node = some injection.rule := by
    obtain ⟨id, numbered, among⟩ := List.mem_flatMap.mp member
    rw [rule_of_mem_injectionsOf among]
    exact ⟨node, Option.mem_toList.mp numbered⟩
  rcases List.mem_append.mp member with member | member
  · obtain ⟨entry, _, member⟩ := List.mem_flatMap.mp member
    exact at_node member
  · obtain ⟨injector, _, member⟩ := List.mem_flatMap.mp member
    obtain ⟨injected, _, member⟩ := List.mem_flatMap.mp member
    obtain ⟨selector, _, member⟩ := List.mem_flatMap.mp member
    exact at_node member

namespace Completes

theorem rule_eq (completes : course.Completes compilation final)
    (held : final.rules[id]? = some rule) :
    id < compilation.grammar.rules.size ∧ compilation.grammar.rule id = rule := by
  rw [completes.rules, CompiledGrammar.rule, completes.rules, held]
  exact ⟨(Array.getElem?_eq_some_iff.mp held).1, rfl⟩

/-- What has a number has a rule that can be tried. -/
theorem tries (completes : course.Completes compilation final)
    (given : final.numbers.get? key = some id) : compilation.grammar.Tries id := by
  obtain ⟨context, _, records⟩ := completes.recorded key id given
  obtain ⟨rule, held, made⟩ := records.made
  obtain ⟨bound, same⟩ := completes.rule_eq held
  exact ⟨bound, by rw [same]; exact made.canBeTried⟩

/-- A rule is made from something with a number, or it is for a group. -/
theorem made_or_captured (completes : course.Completes compilation final)
    (member : rule ∈ compilation.grammar.rules) :
    (∃ context place, Made course.grammars final context place rule) ∨
      ∃ held, rule = .capture held ∧
        ∀ inner ∈ held.retokenize, ∃ key, final.numbers.get? key = some inner := by
  rw [completes.rules] at member
  obtain ⟨id, below, rfl⟩ := Array.mem_iff_getElem.mp member
  rcases completes.covered id below with ⟨context, place, records⟩ | ⟨held, found, numbered⟩
  · obtain ⟨rule, found, made⟩ := records.made
    rw [Array.getElem?_eq_getElem below] at found
    cases found
    exact .inl ⟨context, place, made⟩
  · rw [Array.getElem?_eq_getElem below] at found
    exact .inr ⟨held, Option.some.inj found, numbered⟩

/-- A compilation that completes and fits is well formed. -/
theorem wellFormed (completes : course.Completes compilation final)
    (fits : compilation.Fits) : compilation.grammar.WellFormed where
  finished id below := by
    have member : compilation.grammar.rule id ∈ compilation.grammar.rules := by
      rw [CompiledGrammar.rule, Array.getElem?_eq_getElem below]
      exact Array.getElem_mem below
    rcases completes.made_or_captured member with ⟨_, _, made⟩ | ⟨held, same, _⟩
    · exact made.ne_reserved
    · rw [same]
      rintro ⟨⟩
  listed rule member id among := by
    rcases completes.made_or_captured member with ⟨_, _, made⟩ | ⟨held, rfl, _⟩
    · obtain ⟨node, numbered⟩ := made.listed among
      exact completes.tries numbered
    · cases among
  grouped rule member id among := by
    rcases completes.made_or_captured member with ⟨_, _, made⟩ | ⟨held, rfl, _⟩
    · obtain ⟨held, found⟩ := made.grouped among
      obtain ⟨bound, same⟩ := completes.rule_eq found
      exact ⟨bound, by rw [same]; rfl⟩
    · cases among
  retokenized rule member id among := by
    rcases completes.made_or_captured member with ⟨_, _, made⟩ | ⟨held, rfl, numbered⟩
    · have tried := made.canBeTried
      cases rule with
      | capture => cases tried
      | single | group | region | block | reserved => cases among
    · obtain ⟨key, given⟩ := numbered id among
      exact completes.tries given
  injected injection member := by
    rw [completes.injections] at member
    obtain ⟨node, numbered⟩ := number_of_declared (List.mem_mergeSort.mp member)
    exact completes.tries numbered
  root := completes.tries completes.root
  patterns rule member id among := by
    rw [fits.texts, Array.size_map]
    rcases completes.made_or_captured member with ⟨_, _, made⟩ | ⟨held, rfl, _⟩
    · rw [completes.patterns]
      exact made.patterns among
    · cases among

end Completes
/-- Every rule stands under the number of what it was made from. -/
structure InPlace (course : Course) (final : CompilerState) (grammar : CompiledGrammar) : Prop where
  numbered : ∀ key id, final.numbers.get? key = some id →
    ∃ context, key.scopeName = context.grammar.scopeName ∧
      Made course.grammars final context key.place (grammar.rule id)
  every : ∀ id < grammar.rules.size,
    (∃ key, final.numbers.get? key = some id) ∨ (grammar.rule id).isForGroup = true

theorem Completes.inPlace (completes : course.Completes compilation final) :
    course.InPlace final compilation.grammar where
  numbered key id given := by
    obtain ⟨context, same, records⟩ := completes.recorded key id given
    obtain ⟨rule, held, made⟩ := records.made
    exact ⟨context, same, by rwa [(completes.rule_eq held).2]⟩
  every id below := by
    rw [completes.rules] at below
    rcases completes.covered id below with ⟨context, place, records⟩ | ⟨held, found, _⟩
    · exact .inl ⟨_, records.numbered⟩
    · exact .inr (by rw [(completes.rule_eq found).2]; rfl)

end Course

/-- Every grammar is under its scope name. -/
def Loaded.Keyed (grammars : Loaded) : Prop :=
  ∀ scopeName grammar, grammars.get? scopeName = some grammar → grammar.scopeName = scopeName

namespace Course

variable {course : Course} {final : CompilerState}

/-- A written rule that has been given a number. -/
def Reached (course : Course) (final : CompilerState) (source : RuleSource) : Prop :=
  ∃ grammar place, course.grammars.get? grammar.scopeName = some grammar ∧
    grammar.rule place = source ∧ (final.numbers.get? ⟨some place, grammar.scopeName⟩).isSome

/-- What a compilation comes by is in a grammar that is at hand, under its name. -/
theorem Visits.held (keyed : course.grammars.Keyed)
    (found : course.grammars.get? scopeName = some course.base)
    (visits : course.Visits context place) :
    context.base = course.base ∧
      course.grammars.get? context.grammar.scopeName = some context.grammar := by
  have named {name : String} {grammar : GrammarSource} (held : course.grammars.get? name = some grammar) :
      course.grammars.get? grammar.scopeName = some grammar := by rwa [keyed _ _ held]
  induction visits with
  | root => exact ⟨rfl, named found⟩
  | own => exact ⟨rfl, named found⟩
  | injector _ held => exact ⟨rfl, named held⟩
  | opened _ opens ih => cases opens <;> exact ih
  | @referred context place text next target inner _ follows leads ih =>
    have ih : inner.base = course.base ∧
        course.grammars.get? inner.grammar.scopeName = some inner.grammar := by
      cases follows <;> exact ih
    cases reference : Reference.ofText text with
    | self =>
      rw [reference] at leads
      cases leads
      exact ih
    | base =>
      rw [reference] at leads
      cases leads
      exact ⟨ih.1, by rw [ih.1]; exact named found⟩
    | inRepository name =>
      rw [reference] at leads
      obtain ⟨number, _, same⟩ := Option.map_eq_some_iff.mp leads
      cases same
      exact ih
    | grammar name =>
      rw [reference] at leads
      obtain ⟨grammar, held, same⟩ := Option.map_eq_some_iff.mp leads
      cases same
      exact ⟨ih.1, named held⟩
    | inGrammar name entry =>
      rw [reference] at leads
      obtain ⟨grammar, held, leads⟩ := Option.bind_eq_some_iff.mp leads
      obtain ⟨number, _, same⟩ := Option.map_eq_some_iff.mp leads
      cases same
      exact ⟨ih.1, named held⟩

/-- A compilation that fails does so over a pattern of a rule that it has come to. -/
theorem Fails.reached (keyed : course.grammars.Keyed)
    (found : course.grammars.get? scopeName = some course.base)
    (failed : course.Fails final (.invalidPattern text reason)) :
    ∃ source, course.Reached final source ∧ text ∈ source.checkedPatterns ∧
      course.engine.Refuses text reason := by
  cases failed with
  | refused visits numbered member refuses =>
    rename_i context place
    cases place with
    | none => cases member
    | some number =>
      exact ⟨_, ⟨context.grammar, number, (visits.held keyed found).2, rfl, numbered⟩, member, refuses⟩

/-- A compilation that succeeds has asked the engine for every pattern that it needs. -/
theorem Completes.accepts (completes : course.Completes compilation final)
    (keyed : course.grammars.Keyed) (found : course.grammars.get? scopeName = some course.base)
    {source : RuleSource} (reached : course.Reached final source)
    (member : text ∈ source.checkedPatterns) : course.engine.Accepts text := by
  obtain ⟨grammar, place, held, rfl, numbered⟩ := reached
  obtain ⟨id, given⟩ := Option.isSome_iff_exists.mp numbered
  obtain ⟨context, same, records⟩ := completes.recorded _ id given
  have same : context.grammar = grammar := by
    have under := (records.visits.held keyed found).2
    rw [← same, held] at under
    exact (Option.some.inj under).symm
  apply records.accepts text
  rw [Context.checkedPatterns, same]
  exact member

end Course

namespace Mutual

/-- A grammar that includes another, with a rule whose group is tokenized again. -/
def outer : GrammarSource where
  scopeName := "source.a"
  patterns := [0, 2]
  injections := some ⟨[("L:source.b, R:source.a", 3)]⟩
  rules := #[{ reference := some "source.b" },
    { patterns := some [0], name := some "again" },
    { matchPattern := some "(x)", captures := some ⟨[("1", 1)]⟩ },
    { patterns := some [2] }]

/-- A grammar that includes the first one inside a region, which ends as it starts. -/
def inner (start : String) : GrammarSource where
  scopeName := "source.b"
  patterns := [1]
  rules := #[{ reference := some "source.a" },
    { beginPattern := some start, endPattern := some "\\1", patterns := some [0] }]

/-- The two grammars, and the compilation of the first. -/
def course (start : String) : Course where
  grammars := ⟨[("source.a", outer), ("source.b", inner start)]⟩
  base := outer
  injectors := []
  engine := backtracking

/-- Each grammar is kept under its own name, so the theorem applies. -/
theorem keyed (start : String) : (course start).grammars.Keyed := by
  intro scopeName grammar found
  simp only [course, Table.get?, List.lookup_cons, List.lookup_nil] at found
  split at found
  next same =>
    cases found
    exact (eq_of_beq same).symm
  next =>
    split at found
    next same =>
      cases found
      exact (eq_of_beq same).symm
    next => cases found

end Mutual

end Grammar
end ScopeLexer

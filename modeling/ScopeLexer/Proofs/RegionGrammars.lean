import ScopeLexer.Proofs.ContenderScan
import ScopeLexer.Proofs.RuleLedger

/-!
Grammars of one region. The top level has one rule, with a start and an end. Inside it there is nothing,
or the top level once more. Such a grammar compiles if the engine takes the start, and the end as well
unless that refers back to the start; the top level has number 0 then and the region has number 1. On a
line there is nothing to inject and nothing to check first, so that its scan can be pursued.
-/
namespace ScopeLexer.Grammar

open Pattern Regex

section Parts

variable {recurse : Recurse} {grammars : Loaded} {engine : Engine} {context : Context}
  {state first second after : CompilerState}

theorem run_filterMapM_cons {body : ι → CompileM (Option α)} {item : ι} {items : List ι} {value : α}
    {values : List α} (one : (body item).run.run state = (.ok (some value), first))
    (others : (items.filterMapM body).run.run first = (.ok values, after)) :
    ((item :: items).filterMapM body).run.run state = (.ok (value :: values), after) := by
  rw [List.filterMapM_cons, run_bind, one]
  simp only [run_bind, others]
  rfl

theorem run_compilePatterns_nil :
    (compilePatterns recurse grammars context []).run.run state = (.ok ([], false), state) := rfl

/-- A rule that has been compiled is listed before those that come after it, if anything is left of
it. -/
theorem run_compilePatterns_cons {place : Place} {places : List Place} {id : RuleId}
    {ids : List RuleId} {incomplete : Bool}
    (compiled : (match (context.grammar.rule place).reference with
      | some reference => compileReference recurse grammars context reference
      | none => some <$> recurse context (some place)).run.run state = (.ok (some id), first))
    (full : (first.rules[id]?.getD .reserved).isHollow = false)
    (others : (compilePatterns recurse grammars context places).run.run first =
      (.ok (ids, incomplete), after)) :
    (compilePatterns recurse grammars context (place :: places)).run.run state =
      (.ok (id :: ids, incomplete), after) := by
  unfold compilePatterns at others ⊢
  rw [run_bind] at others ⊢
  split at others
  next listed last done =>
    cases others
    rw [run_filterMapM_cons ?_ done]
    · simp only [List.length_cons, ne_eq, Nat.add_right_cancel_iff]
      rfl
    · cases reference : (context.grammar.rule place).reference with
      | none | some =>
        simp only [reference] at compiled ⊢
        simp only [run_bind, compiled, run_get, Option.filter_some, full, Bool.not_false, if_true]
        rfl
  next => cases others

/-- References to the top level are listed as the number that it has. -/
theorem run_compilePatterns_self {places : List Place} {root : RuleId}
    (numbered : (recurse (.top context.grammar context.base) none).run.run state = (.ok root, state))
    (full : (state.rules[root]?.getD .reserved).isHollow = false)
    (recurs : ∀ own ∈ places, (context.grammar.rule own).reference = some "$self") :
    (compilePatterns recurse grammars context places).run.run state =
      (.ok (places.map fun _ => root, false), state) := by
  induction places with
  | nil => rfl
  | cons own places ih =>
    obtain ⟨first, others⟩ := List.forall_mem_cons.mp recurs
    refine run_compilePatterns_cons ?_ full (ih others)
    have self : Reference.ofText "$self" = .self := by decide +kernel
    simp only [first, compileReference, self, run_bind, ExceptT.run_map, StateT.run_map, numbered]
    rfl

/-- A region without rules for groups is compiled by adding its start and its end, and compiling the
rules inside it. -/
theorem run_compileRule_region {name contentName : Option String} {start stop : String}
    {inner : Option (List Place)} {startId stopId : PatternId} {ids : List RuleId} {incomplete : Bool}
    (startAdded : (addPattern engine start false).run.run state = (.ok startId, first))
    (stopAdded : (addPattern engine stop true).run.run first = (.ok stopId, second))
    (inside : (compilePatterns recurse grammars context (inner.getD [])).run.run second =
      (.ok (ids, incomplete), after)) :
    (compileRule recurse grammars engine context
      { name := name, contentName := contentName, beginPattern := some start, endPattern := some stop,
        patterns := inner }).run.run state =
      (.ok (.region ⟨name, contentName, startId, {}, stopId,
        after.patterns[stopId]?.any (·.pattern.hasReferences), {}, false, ids, incomplete⟩),
        after) := by
  have bare (state : CompilerState) :
      (compileCaptures recurse context none).run.run state = (.ok {}, state) := rfl
  show (compileSpanning recurse grammars engine context _ start).run.run state = _
  unfold compileSpanning
  simp only [Option.orElse_none, Option.getD_some, run_bind, startAdded, stopAdded, bare, inside]
  rfl

/-- A pattern is added if it is to be resolved later, or else if the engine takes it. -/
theorem run_addPattern_ok (text : String) (resolvedLater : Bool)
    (added : (resolvedLater && (Pattern.ofText text).hasReferences) = true ∨
      ∃ searcher, engine.compile (Pattern.ofText text).source = .ok searcher)
    (state : CompilerState) : ∃ cached journal, cached.pattern = .ofText text ∧
      (addPattern engine text resolvedLater).run.run state =
        (.ok state.patterns.size,
          { state with patterns := state.patterns.push cached, journal := journal }) := by
  rw [run_addPattern]
  split
  next later => exact ⟨.ofText text, state.journal, rfl, rfl⟩
  next now =>
    obtain ⟨searcher, takes⟩ := added.resolve_left now
    refine ⟨(CachedPattern.ofText text).fillSlot .both (some searcher),
      state.journal.compiled (Pattern.ofText text).source, rfl, ?_⟩
    simp only [CachedPattern.validate, CachedPattern.ofText, takes]

/-- What has no number yet is compiled under the next, if it can be compiled. -/
theorem run_compileAt_ok {depth : Nat} {place : Option Place} {rule : Rule}
    (fresh : state.numberOf (context, place) = none)
    (made : (Lockstep.compileFresh grammars engine (compileAt grammars engine depth) context
      place).run.run (Lockstep.CompilerState.entered state ⟨place, context.grammar.scopeName⟩) =
        (.ok rule, after)) :
    (compileAt grammars engine (depth + 1) context place).run.run state =
      (.ok state.rules.size,
        { after with rules := after.rules.setIfInBounds state.rules.size rule }) := by
  rw [Course.run_compileAt_fresh _ _ _ fresh, made]

end Parts

/-- A grammar that is compiled alone and has no rules to inject compiles as its top level does. -/
theorem compile_alone {source : GrammarSource} {engine : Engine} {journal : Journal} {root : RuleId}
    {state : CompilerState} (own : source.injections = none)
    (run : (compileAt ⟨[(source.scopeName, source)]⟩ engine (depthFor ⟨[(source.scopeName, source)]⟩)
      (.top source source) none).run.run { journal := journal } = (.ok root, state)) :
    (compile source.scopeName ⟨[(source.scopeName, source)]⟩ [] engine journal).1 =
      .ok ⟨⟨source.scopeName, root, state.rules, state.patterns.map CachedPattern.pattern, []⟩,
        state.patterns⟩ := by
  have found : Table.get? (⟨[(source.scopeName, source)]⟩ : Loaded) source.scopeName =
      some source := by simp [Table.get?]
  unfold compile compileAll
  simp [found, run, compileOwnInjections, own, compileInjectors, sortInjections]
  rfl

/-- A region as it is compiled in a grammar that has nothing else. -/
def loneRegion (name contentName : Option String) (stop : String) (inside : List RuleId) : Rule :=
  .region ⟨name, contentName, 0, {}, 1, (Pattern.ofText stop).hasReferences, {}, false, inside, false⟩

/-- A grammar of one region, compiled. The top level has number 0 and the region has number 1. -/
def regionGrammar (scopeName : String) (name contentName : Option String) (start stop : String)
    (inside : List RuleId) : CompiledGrammar where
  scopeName := scopeName
  root := 0
  rules := #[.group ⟨some scopeName, none, [1], false⟩, loneRegion name contentName stop inside]
  patterns := #[.ofText start, .ofText stop]
  injections := []

section Scan

variable {scopeName : String} {name contentName : Option String} {start stop : String}
  {inside : List RuleId}

/-- At the top level the region can be entered. -/
theorem ruleContenders_top (ending : Option String) :
    Line.ruleContenders (regionGrammar scopeName name contentName start stop inside) 0 ending =
      [⟨.enter 1, .ofText start⟩] := by
  simp [Line.ruleContenders, CompiledGrammar.candidates, CompiledGrammar.flatten,
    CompiledGrammar.rule, Line.startContender, Rule.patterns, Rule.entryPattern, regionGrammar,
    loneRegion]

/-- The region comes on top when it is entered. -/
theorem outline_entered (scopeName : String) (name contentName : Option String) (start stop : String)
    (inside : List RuleId) (engine : Engine) (styling : Styling) (line : SourceLine)
    (cursor : Line.Cursor) (found : Line.Match) :
    let grammar := regionGrammar scopeName name contentName start stop inside
    ∃ rule, Line.spanning? (grammar.rule 1) = some rule ∧
      (Line.enteredStack (Line.rememberingScanner engine grammar styling) line cursor found 1
        rule).outline =
          (cursor.stack.depth + 1, 1, if (Pattern.ofText stop).hasReferences then
            some (resolve (Pattern.ofText stop).source line found.spans).1 else none) ::
          cursor.stack.outline :=
  ⟨_, rfl, Line.outline_enteredStack ..⟩

/-- The scan of a line that is pursued from its start ends as it should. -/
theorem outcome_region {tokenizer : Tokenizer}
    (same : tokenizer.grammar = regionGrammar scopeName name contentName start stop inside)
    {engine : Engine} {store : Store} (serves : store.Serves engine tokenizer.grammar)
    {attempts : Line.Target → SourceLine → Nat → Option Spans} {Good : Line.Cursor → Prop}
    {Ends : Stack → Prop} (theme : Theme) (state : Option Stack) (text : String)
    (pursuit : Line.Pursuit engine (regionGrammar scopeName name contentName start stop inside)
      (tokenizer.styling theme) (Tokenizer.lineOf text) attempts Good Ends)
    (good : Good (.atStart (tokenizer.startStack theme state) state.isNone)) :
    Ends (tokenizer.outcome engine theme state text (fun _ => false) store).stack := by
  have alone : tokenizer.grammar.injections = [] := by rw [same]; rfl
  have blockless (id : RuleId) (rule : BlockRule) : tokenizer.grammar.rule id ≠ .block rule := by
    rw [same]
    rcases id with _ | _ | id <;> simp [CompiledGrammar.rule, regionGrammar, loneRegion]
  rw [← same] at pursuit
  exact tokenizer.outcome_pursued serves alone blockless theme state text pursuit good

end Scan

section Whole

variable {source : GrammarSource} {place : Place} {name contentName : Option String}
  {start stop : String} {inner : Option (List Place)} {engine : Engine}

/-- A grammar of one region, inside which there is nothing but the top level. The engine takes what it
is asked for. -/
structure OneRegion (source : GrammarSource) (place : Place) (name contentName : Option String)
    (start stop : String) (inner : Option (List Place)) (engine : Engine) : Prop where
  uninjected : source.injections = none
  tried : source.patterns = [place]
  written : source.rule place =
    { name := name, contentName := contentName, beginPattern := some start, endPattern := some stop,
      patterns := inner }
  recurs : ∀ own ∈ inner.getD [], (source.rule own).reference = some "$self"
  takesStart : ∃ searcher, engine.compile (Pattern.ofText start).source = .ok searcher
  takesStop : (Pattern.ofText stop).hasReferences = true ∨
    ∃ searcher, engine.compile (Pattern.ofText stop).source = .ok searcher

namespace OneRegion

variable (one : OneRegion source place name contentName start stop inner engine)

include one

/-- The region is compiled while the top level has its number already. -/
theorem run_place (grammars : Loaded) (depth : Nat) (journal : Journal) :
    let begun := Lockstep.CompilerState.entered { journal := journal } ⟨none, source.scopeName⟩
    ∃ startCached stopCached after, startCached.pattern = .ofText start ∧
      stopCached.pattern = .ofText stop ∧ after.patterns = #[startCached, stopCached] ∧
      after.rules = #[.reserved, loneRegion name contentName stop ((inner.getD []).map fun _ => 0)] ∧
      (compileAt grammars engine (depth + 2) (.top source source) (some place)).run.run begun =
        (.ok 1, after) := by
  intro begun
  let entered := Lockstep.CompilerState.entered begun ⟨some place, source.scopeName⟩
  have fresh : begun.numberOf (.top source source, some place) = none := by
    simp [begun, CompilerState.numberOf, Lockstep.CompilerState.entered]
  obtain ⟨startCached, noted, startText, startAdded⟩ :=
    run_addPattern_ok start false (.inr one.takesStart) entered
  obtain ⟨stopCached, last, stopText, stopAdded⟩ := run_addPattern_ok stop true one.takesStop
    { entered with patterns := #[startCached], journal := noted }
  -- The top level has its number, so that references to it are not compiled again.
  let left := { entered with patterns := #[startCached, stopCached], journal := last }
  have numbered : (compileAt grammars engine (depth + 1) (.top source source) none).run.run left =
      (.ok 0, left) := by
    rw [Lockstep.run_compileAt]
    simp [left, entered, begun, Lockstep.CompilerState.entered, Context.top]
  have listed : (compilePatterns (compileAt grammars engine (depth + 1)) grammars (.top source source)
      (inner.getD [])).run.run left = (.ok ((inner.getD []).map fun _ => 0, false), left) :=
    run_compilePatterns_self numbered rfl one.recurs
  have made : (compileRule (compileAt grammars engine (depth + 1)) grammars engine
      (.top source source) (source.rule place)).run.run entered =
      (.ok (loneRegion name contentName stop ((inner.getD []).map fun _ => 0)), left) := by
    have refers : left.patterns[1]?.any (·.pattern.hasReferences) =
        (Pattern.ofText stop).hasReferences := congrArg Pattern.hasReferences stopText
    rw [one.written, loneRegion, ← refers]
    exact run_compileRule_region startAdded stopAdded listed
  exact ⟨startCached, stopCached, _, startText, stopText, rfl, rfl, run_compileAt_ok fresh made⟩

/-- The grammar compiles. -/
theorem compiles (journal : Journal) :
    ∃ patterns, (compile source.scopeName ⟨[(source.scopeName, source)]⟩ [] engine journal).1 =
      .ok ⟨regionGrammar source.scopeName name contentName start stop
        ((inner.getD []).map fun _ => 0), patterns⟩ := by
  obtain ⟨depth, deep⟩ : ∃ depth, depthFor ⟨[(source.scopeName, source)]⟩ = depth + 3 := by
    have held : 0 < source.rules.size := by
      by_contra empty
      have beyond := one.written
      rw [Lockstep.rule_of_size_le (by omega)] at beyond
      cases beyond
    refine ⟨source.rules.size - 1, ?_⟩
    show source.rules.size + 0 + 1 + 1 = source.rules.size - 1 + 3
    omega
  obtain ⟨startCached, stopCached, after, startText, stopText, patterns, rules, placed⟩ :=
    one.run_place ⟨[(source.scopeName, source)]⟩ depth journal
  let alone : Loaded := ⟨[(source.scopeName, source)]⟩
  let started : CompilerState := { journal := journal }
  have listed : (compilePatterns (compileAt alone engine (depth + 2)) alone (.top source source)
      source.patterns).run.run (Lockstep.CompilerState.entered started ⟨none, source.scopeName⟩) =
        (.ok ([1], false), after) := by
    rw [one.tried]
    refine run_compilePatterns_cons ?_ (by rw [rules]; rfl) run_compilePatterns_nil
    simp only [Context.top, one.written, ExceptT.run_map, StateT.run_map] at placed ⊢
    rw [placed]
    rfl
  have made : (Lockstep.compileFresh alone engine (compileAt alone engine (depth + 2))
      (.top source source) none).run.run
      (Lockstep.CompilerState.entered started ⟨none, source.scopeName⟩) =
        (.ok (.group ⟨some source.scopeName, none, [1], false⟩), after) := by
    simp only [Lockstep.compileFresh, compileTop, run_bind, Context.top] at listed ⊢
    rw [listed]
    rfl
  have fresh : started.numberOf (.top source source, none) = none := rfl
  have run := run_compileAt_ok fresh made
  rw [← deep] at run
  refine ⟨after.patterns, (compile_alone one.uninjected run).trans ?_⟩
  simp only [rules, patterns, List.map_toArray, List.map_cons, List.map_nil, startText, stopText]
  rfl

end OneRegion
end Whole

end ScopeLexer.Grammar

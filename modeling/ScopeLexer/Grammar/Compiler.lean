import ScopeLexer.Dictionary
import ScopeLexer.Grammar.Dependencies
import ScopeLexer.Grammar.Rule
import ScopeLexer.Selector.Parser

/-!
Compiling a grammar. A rule is given its number before the rules inside it are compiled, so rules may
refer to one another in circles. A written rule is compiled once, wherever it is referred to from; the
context of the first reference decides what the names inside it stand for.
-/
namespace ScopeLexer.Grammar

open Regex

/-- What is compiled: a rule, or the top level of a grammar. -/
structure Key where
  /-- The place of the rule; none for the top level. -/
  place : Option Place
  scopeName : String
  deriving Repr, DecidableEq, Inhabited

structure CompilerState where
  rules : Array Rule := #[]
  patterns : Array CachedPattern := #[]
  /-- The numbers given out. -/
  numbers : Dictionary Key RuleId := {}
  journal : Journal

/-- Compiling: the state is kept when it fails. -/
abbrev CompileM := ExceptT CompileError (StateM CompilerState)

/-- Gives out a number. -/
def reserve : CompileM RuleId :=
  modifyGet fun state => (state.rules.size, { state with rules := state.rules.push .reserved })

def define (id : RuleId) (rule : Rule) : CompileM Unit :=
  modify fun state => { state with rules := state.rules.setIfInBounds id rule }

def warn (warning : Warning) : CompileM Unit :=
  modify fun state => { state with journal := state.journal.warn warning }

/-- Makes room for groups. One more than the largest of them is counted in 64 bits. -/
def makeRoom (groups : List Nat) : CompileM CaptureTable := do
  let table := CaptureTable.withRoom groups
  unless table.size < 0x10000000000000000 do
    modify fun state => { state with journal := state.journal.overflowed }
  return table

/-- Adds a pattern. It must compile as written, unless it has back-references and these are to be
resolved later. -/
def addPattern (engine : Engine) (text : String) (resolvedLater : Bool) : CompileM PatternId := do
  let cached := CachedPattern.ofText text
  let state ← get
  let id := state.patterns.size
  if resolvedLater && cached.pattern.hasReferences then
    set { state with patterns := state.patterns.push cached }
    return id
  match cached.validate engine state.journal with
  | (.ok cached, journal) =>
    set { state with patterns := state.patterns.push cached, journal := journal }
    return id
  | (.error reason, journal) =>
    set { state with journal := journal }
    throw (.invalidPattern text reason)

/-- The group number that a key denotes: digits, perhaps after a plus sign, between blanks. -/
def groupOfKey? (key : String) : Option Nat :=
  let digits := match Text.trimChars key.toList with
    | '+' :: digits => digits
    | digits => digits
  if digits.isEmpty then none else Pattern.groupNumber? digits

/-- Compiles what a context and a key stand for. -/
abbrev Recurse := Context → Option Place → CompileM RuleId

/-- Compiles the rules for the groups of a match, in key order. A group with patterns of its own is
tokenized again with them. -/
def compileCaptures (recurse : Recurse) (context : Context) (captures : Option (Table Place)) :
    CompileM CaptureTable := do
  let numbered := ((captures.map Table.entries).getD []).filterMap fun (key, place) =>
    (groupOfKey? key).map fun group => (group, place)
  let room ← makeRoom (numbered.map Prod.fst)
  let slots ← numbered.mapM fun (group, place) => do
    let rule := context.grammar.rule place
    let retokenize ←
      if rule.patterns.isSome then some <$> recurse context (some place) else pure none
    let id ← reserve
    define id (.capture ⟨rule.name, rule.contentName, retokenize⟩)
    return (group, id)
  return room.fill slots

/-- Compiles what a reference stands for, if it can be found. -/
def compileReference (recurse : Recurse) (grammars : Loaded) (context : Context) (text : String) :
    CompileM (Option RuleId) := do
  let resolved ← match Reference.ofText text with
    | .self => some <$> recurse (Context.top context.grammar context.base) none
    | .base => some <$> recurse (Context.top context.base context.base) none
    | .inRepository name =>
      match context.lookup name with
      | some place => some <$> recurse context (some place)
      | none => pure none
    | .grammar scopeName =>
      match grammars.get? scopeName with
      | some grammar => some <$> recurse (Context.top grammar context.base) none
      | none => pure none
    | .inGrammar scopeName name =>
      match grammars.get? scopeName with
      | some grammar =>
        match grammar.repository.bind (·.get? name) with
        | some place => some <$> recurse (Context.top grammar context.base) (some place)
        | none => pure none
      | none => pure none
  if resolved.isNone then warn (.unresolvedReference text context.grammar.scopeName)
  return resolved

/-- Compiles the rules inside a rule. A rule that refers to others stands for these alone. Rules of
which nothing is left are left out. Also says whether any are. -/
def compilePatterns (recurse : Recurse) (grammars : Loaded) (context : Context)
    (places : List Place) : CompileM (List RuleId × Bool) := do
  let ids ← places.filterMapM fun place => do
    let compiled ← match (context.grammar.rule place).reference with
      | some reference => compileReference recurse grammars context reference
      | none => some <$> recurse context (some place)
    let rules := (← get).rules
    return compiled.filter fun id => !(rules[id]?.getD .reserved).isHollow
  return (ids, ids.length ≠ places.length)

/-- Compiles a rule with a start: it has a condition, or else an end. Without either it never ends. -/
def compileSpanning (recurse : Recurse) (grammars : Loaded) (engine : Engine) (context : Context)
    (rule : RuleSource) (startPattern : String) : CompileM Rule := do
  let start ← addPattern engine startPattern false
  let startCaptures ←
    compileCaptures recurse context (rule.beginCaptures.orElse fun _ => rule.captures)
  let hasReferences (id : PatternId) : CompileM Bool := do
    return ((← get).patterns[id]?).any (·.pattern.hasReferences)
  match rule.whilePattern with
  | some condition =>
    let condition ← addPattern engine condition true
    let conditionCaptures ←
      compileCaptures recurse context (rule.whileCaptures.orElse fun _ => rule.captures)
    let (patterns, incomplete) ←
      compilePatterns recurse grammars context (rule.patterns.getD [])
    return .block {
      name := rule.name
      contentName := rule.contentName
      start := start
      startCaptures := startCaptures
      condition := condition
      conditionHasReferences := ← hasReferences condition
      conditionCaptures := conditionCaptures
      patterns := patterns
      incomplete := incomplete }
  | none =>
    let stop ← addPattern engine (rule.endPattern.getD (String.singleton Pattern.Flavour.noChar)) true
    let stopCaptures ←
      compileCaptures recurse context (rule.endCaptures.orElse fun _ => rule.captures)
    let (patterns, incomplete) ←
      compilePatterns recurse grammars context (rule.patterns.getD [])
    return .region {
      name := rule.name
      contentName := rule.contentName
      start := start
      startCaptures := startCaptures
      stop := stop
      stopHasReferences := ← hasReferences stop
      stopCaptures := stopCaptures
      stopLast := rule.endLast
      patterns := patterns
      incomplete := incomplete }

/-- Compiles a rule without a pattern. A reference counts only if there are no patterns. -/
def compileGroup (recurse : Recurse) (grammars : Loaded) (context : Context) (rule : RuleSource) :
    CompileM Rule := do
  let (patterns, incomplete) ← match rule.patterns, rule.reference with
    | none, some reference => do
      let resolved ← compileReference recurse grammars context reference
      pure (resolved.toList, resolved.isNone)
    | patterns, _ => compilePatterns recurse grammars context (patterns.getD [])
  return .group ⟨rule.name, rule.contentName, patterns, incomplete⟩

def compileRule (recurse : Recurse) (grammars : Loaded) (engine : Engine) (context : Context)
    (rule : RuleSource) : CompileM Rule := do
  let context := context.inside rule.repository
  match rule.matchPattern, rule.beginPattern with
  | some pattern, _ =>
    let pattern ← addPattern engine pattern false
    let captures ← compileCaptures recurse context rule.captures
    return .single ⟨rule.name, pattern, captures⟩
  | none, some start => compileSpanning recurse grammars engine context rule start
  | none, none => compileGroup recurse grammars context rule

/-- Compiles the top level of a grammar. -/
def compileTop (recurse : Recurse) (grammars : Loaded) (context : Context) : CompileM Rule := do
  let (patterns, incomplete) ←
    compilePatterns recurse grammars context context.grammar.patterns
  return .group ⟨some context.grammar.scopeName, none, patterns, incomplete⟩

/-- Compiles a rule, or the top level of a grammar, unless it has its number already. The first
argument bounds the depth; every level gives out a number for something that had none. -/
def compileAt (grammars : Loaded) (engine : Engine) : Nat → Recurse
  | 0, _, _ => throw .outOfSteps
  | depth + 1, context, place => do
    let key : Key := ⟨place, context.grammar.scopeName⟩
    match (← get).numbers.get? key with
    | some id => return id
    | none =>
      let id ← reserve
      modify fun state => { state with numbers := state.numbers.insert key id }
      let recurse := compileAt grammars engine depth
      let rule ← match place with
        | some place =>
          compileRule recurse grammars engine context (context.grammar.rule place)
        | none => compileTop recurse grammars context
      define id rule
      return id

/-- The injections of a rule, one for each selector of a list. -/
def injectionsOf (selector : String) (rule : RuleId) : List Injection :=
  (Selector.parse selector).map fun parsed => ⟨selector, parsed.matcher, parsed.priority, rule⟩

/-- Enough depth for some grammars. -/
def depthFor (grammars : Loaded) : Nat := grammars.ruleCount + grammars.entries.length + 1

/-- Compiles the rules that a grammar injects into itself. -/
def compileOwnInjections (recurse : Recurse) (grammar : GrammarSource) :
    CompileM (List Injection) := do
  let compiled ← ((grammar.injections.map Table.entries).getD []).mapM fun (selector, place) => do
    return injectionsOf selector (← recurse (Context.top grammar grammar) (some place))
  return compiled.flatten

/-- Compiles the grammars that are injected into a grammar. One that is not there is passed over, and so
is one that does not say where it is injected. -/
def compileInjectors (recurse : Recurse) (grammars : Loaded) (grammar : GrammarSource)
    (injectors : List String) : CompileM (List Injection) := do
  let compiled ← injectors.mapM fun injector => do
    match grammars.get? injector with
    | none => do
      warn (.injectorMissing injector)
      return []
    | some injected =>
      match injected.injectionSelector with
      | none => return []
      | some selector =>
        return injectionsOf selector (← recurse (Context.top injected grammar) none)
  return compiled.flatten

/-- Injections in the order in which they are tried: by priority, then as given. -/
def sortInjections (injections : List Injection) : List Injection :=
  injections.mergeSort fun left right => decide (left.priority.rank ≤ right.priority.rank)

/-- Compiles a grammar out of those loaded, with those injected into it. -/
def compileAll (scopeName : String) (grammars : Loaded) (injectors : List String)
    (engine : Engine) : CompileM (RuleId × List Injection) := do
  match grammars.get? scopeName with
  | none => throw (.missingGrammar scopeName)
  | some grammar =>
    let recurse := compileAt grammars engine (depthFor grammars)
    let root ← recurse (Context.top grammar grammar) none
    let own ← compileOwnInjections recurse grammar
    let injected ← compileInjectors recurse grammars grammar injectors
    return (root, sortInjections (own ++ injected))

/-- The result of compiling a grammar: the rules, and the patterns with what was compiled of them. -/
structure Compilation where
  grammar : CompiledGrammar
  patterns : Array CachedPattern

/-- Compiles a grammar. The journal is given also if that fails. -/
def compile (scopeName : String) (grammars : Loaded) (injectors : List String) (engine : Engine)
    (journal : Journal) : Except CompileError Compilation × Journal :=
  match (compileAll scopeName grammars injectors engine).run.run { journal := journal } with
  | (.error error, state) => (.error error, state.journal)
  | (.ok (root, injections), state) =>
    let compiled : CompiledGrammar := {
      scopeName := scopeName
      root := root
      rules := state.rules
      patterns := state.patterns.map CachedPattern.pattern
      injections := injections }
    (.ok ⟨compiled, state.patterns⟩, state.journal)

end ScopeLexer.Grammar

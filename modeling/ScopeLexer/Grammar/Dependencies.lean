import ScopeLexer.Error
import ScopeLexer.Grammar.Context
import ScopeLexer.Grammar.Reference

/-!
The grammars that a grammar needs: those that its rules refer to, those that theirs refer to, and so on,
and the grammars injected into any of them. The walk goes in rounds. A round looks up the grammars asked
for, walks over the rules asked for, and collects what these ask for in turn. A whole grammar is asked
for once, and a rule of a grammar only if neither it nor the whole grammar was asked for before.
-/
namespace ScopeLexer.Grammar

/-- Something that is needed: a whole grammar, or one rule of its repository. -/
inductive Dependency where
  | whole (scopeName : String)
  | part (scopeName name : String)
  deriving Repr, DecidableEq, Inhabited

/-- The grammar that something is needed of. -/
def Dependency.scopeName : Dependency → String
  | .whole scopeName => scopeName
  | .part scopeName _ => scopeName

/-- What a walk over rules has met. -/
structure Collector where
  /-- What is needed, the last one first, each once. -/
  needed : List Dependency := []
  /-- The rules walked over, by place and grammar. -/
  visited : List (Place × String) := []

namespace Collector

/-- Notes that something is needed. -/
def add (collector : Collector) (dependency : Dependency) : Collector :=
  if collector.needed.contains dependency then collector
  else { collector with needed := dependency :: collector.needed }

def hasVisited (collector : Collector) (context : Context) (place : Place) : Bool :=
  collector.visited.contains (place, context.grammar.scopeName)

/-- Notes that a rule has been walked over. -/
def visit (collector : Collector) (context : Context) (place : Place) : Collector :=
  { collector with visited := (place, context.grammar.scopeName) :: collector.visited }

end Collector

/-- A walk over rules in a context. -/
abbrev Walk := Context → List Place → Collector → Collector

/-- Walks over the rules at the top level of a grammar and over those it injects. -/
def walkTop (walk : Walk) (base grammar : GrammarSource) (collector : Collector) : Collector :=
  let context := Context.top grammar base
  let collector := walk context grammar.patterns collector
  match grammar.injections with
  | some injections => walk context injections.values collector
  | none => collector

/-- Walks over the rule that a name stands for, if it does. -/
def walkNamed (walk : Walk) (context : Context) (name : String) (collector : Collector) :
    Collector :=
  match context.lookup name with
  | some place => walk context [place] collector
  | none => collector

/-- The grammar of a scope name, if it is one of the two at hand. -/
def atHand? (context : Context) (scopeName : String) : Option GrammarSource :=
  if scopeName = context.grammar.scopeName then some context.grammar
  else if scopeName = context.base.scopeName then some context.base
  else none

/-- Follows a reference. `context` is where the rule stands, `inner` is inside it. What is not at hand
is noted as needed. -/
def walkReference (walk : Walk) (context inner : Context) (collector : Collector) :
    Reference → Collector
  | .base => walkTop walk context.base context.base collector
  | .self => walkTop walk context.base context.grammar collector
  | .inRepository name => walkNamed walk inner name collector
  | .grammar scopeName =>
    match atHand? context scopeName with
    | some grammar => walkTop walk context.base grammar collector
    | none => collector.add (.whole scopeName)
  | .inGrammar scopeName name =>
    match atHand? context scopeName with
    | some grammar => walkNamed walk (Context.top grammar context.base) name collector
    | none => collector.add (.part scopeName name)

/-- Walks over one rule, unless it has been walked over: over the rules inside it, then over those it
refers to. -/
def walkRule (walk : Walk) (context : Context) (collector : Collector) (place : Place) :
    Collector :=
  if collector.hasVisited context place then collector
  else
    let rule := context.grammar.rule place
    let inner := context.inside rule.repository
    let tables := [rule.captures, rule.beginCaptures, rule.endCaptures, rule.whileCaptures]
    let collector := walk inner (rule.patterns.getD []) (collector.visit context place)
    let collector := tables.foldl (fun collector table =>
      walk inner ((table.map Table.values).getD []) collector) collector
    match rule.reference with
    | some reference => walkReference walk context inner collector (.ofText reference)
    | none => collector

/-- Walks over rules. The first argument bounds the depth; every level below the first belongs to a
rule not walked over before. -/
def walkRules : Nat → Walk
  | 0, _, _, collector => collector
  | depth + 1, context, places, collector =>
    places.foldl (walkRule (walkRules depth) context) collector

/-- Where grammars come from. A look-up may change the source it looks in, even if it fails. -/
structure Library (σ : Type) where
  lookup : String → ExceptT Error (StateM σ) (Option GrammarSource)
  /-- The scope names of the grammars injected into one. -/
  injectors : String → σ → List String

/-- The grammars found so far, by scope name. -/
abbrev Loaded := Table GrammarSource

def Loaded.ruleCount (loaded : Loaded) : Nat :=
  loaded.values.foldr (fun grammar count => grammar.rules.size + count) 0

/-- What has been asked for, and what is asked for now. -/
structure Requests where
  wholes : List String
  parts : List (String × String) := []
  queue : List Dependency
  deriving Repr, Inhabited

namespace Requests

/-- Asks for something, unless it was asked for. -/
def ask (requests : Requests) (dependency : Dependency) : Requests :=
  if requests.wholes.contains dependency.scopeName then requests
  else
    match dependency with
    | .whole scopeName =>
      { requests with
        wholes := scopeName :: requests.wholes
        queue := requests.queue ++ [dependency] }
    | .part scopeName name =>
      if requests.parts.contains (scopeName, name) then requests
      else
        { requests with
          parts := (scopeName, name) :: requests.parts
          queue := requests.queue ++ [dependency] }

end Requests

/-- Walks over what is asked for, in a grammar that was found. -/
def walkDependency (walk : Walk) (base grammar : GrammarSource) (collector : Collector) :
    Dependency → Collector
  | .whole _ => walkTop walk base grammar collector
  | .part _ name => walkNamed walk (Context.top grammar base) name collector

section

variable {σ : Type} (library : Library σ)

/-- Looks up the grammars asked for that are not there yet. -/
def lookupAll : List Dependency → Loaded → ExceptT Error (StateM σ) Loaded
  | [], loaded => pure loaded
  | dependency :: rest, loaded => do
    let scopeName := dependency.scopeName
    if loaded.contains scopeName then lookupAll rest loaded
    else
      match ← library.lookup scopeName with
      | some grammar => lookupAll rest (loaded.insert scopeName grammar)
      | none => lookupAll rest loaded

/-- What the grammars asked for need in turn: what their rules refer to, and what is injected into
them. -/
def collectNeeded (base : GrammarSource) (loaded : Loaded) (queue : List Dependency) (source : σ) :
    List Dependency :=
  let walk := walkRules (loaded.ruleCount + 1)
  let collector := queue.foldl (fun (collector : Collector) dependency =>
    match loaded.get? dependency.scopeName with
    | none => collector
    | some grammar =>
      let collector := walkDependency walk base grammar collector dependency
      (library.injectors dependency.scopeName source).foldl
        (fun (collector : Collector) injector => collector.add (.whole injector)) collector) {}
  collector.needed.reverse

/-- Goes on in rounds until nothing more is asked for. The first argument bounds the rounds; each asks
for something new. -/
def loadRounds (base : GrammarSource) :
    Nat → Requests → Loaded → ExceptT Error (StateM σ) Loaded
  | 0, _, loaded => pure loaded
  | rounds + 1, requests, loaded =>
    if requests.queue.isEmpty then pure loaded
    else do
      let loaded ← lookupAll library requests.queue loaded
      let needed := collectNeeded library base loaded requests.queue (← get)
      loadRounds base rounds (needed.foldl Requests.ask { requests with queue := [] }) loaded

/-- Loads a grammar with all that it needs. Nothing is given if the grammar itself is not there;
other grammars that are not there are left out. -/
def loadDependencies (rounds : Nat) (scopeName : String) :
    ExceptT Error (StateM σ) (Option Loaded) := do
  match ← library.lookup scopeName with
  | none => return none
  | some grammar =>
    let requests : Requests := { wholes := [scopeName], queue := [.whole scopeName] }
    return some (← loadRounds library grammar rounds requests (Table.empty.insert scopeName grammar))

end

end ScopeLexer.Grammar

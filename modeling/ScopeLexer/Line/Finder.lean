import ScopeLexer.Line.PatternSet
import ScopeLexer.Pattern.Store
import ScopeLexer.Stack

/-!
Finding what matches next on a line. The patterns tried are those of the rule at the top, its end among
them, and those of the injections whose condition holds for the scopes reached. A set of patterns is
built once for a line, and remembers what it found.

The scan of a line takes the way to find matches as a value, so that what it does can be stated for
every such way.
-/
namespace ScopeLexer.Line

open Grammar Pattern Regex

/-- A way to find matches, with a state. -/
structure Finder (σ : Type) where
  /-- What matches next at or after a byte. -/
  next : SourceLine → Nat → Flavour → Stack → σ → Option Match × σ
  /-- The match of the condition of the rule of a frame, at or after a byte. -/
  condition : SourceLine → Nat → Flavour → Frame → σ → Option Match × σ
  /-- Notes a warning. -/
  warn : Warning → σ → σ

/-- What the patterns of a set depend on. -/
structure SetKey where
  rule : RuleId
  flavour : Flavour
  ending : Option String
  deriving Repr, DecidableEq, Inhabited

/-- The patterns at hand while a line is scanned. -/
structure Workspace where
  store : Store
  /-- Sets built for rules. -/
  ruleSets : Dictionary SetKey PatternSet := {}
  /-- Sets built for conditions. -/
  conditionSets : Dictionary SetKey PatternSet := {}

section

variable (engine : Engine) (grammar : CompiledGrammar)

/-- The pattern by which a rule is entered. -/
def entryOf (flavour : Flavour) (rule : RuleId) (store : Store) : Option Entry × Store :=
  match (grammar.rule rule).entryPattern with
  | none => (none, store)
  | some pattern =>
    let ((searcher, hasG), store) := store.own engine pattern flavour
    (some { target := .enter rule, searcher := searcher, hasG := hasG }, store)

/-- The patterns by which rules are entered. -/
def entriesOf (flavour : Flavour) : List RuleId → Store → List Entry × Store
  | [], store => ([], store)
  | rule :: rules, store =>
    let (entry, store) := entryOf engine grammar flavour rule store
    let (entries, store) := entriesOf flavour rules store
    (entry.toList ++ entries, store)

/-- The pattern of an end or a condition: the resolved one of a frame if there are back-references to
resolve, else the one of the grammar. -/
def endingEntry (pattern : PatternId) (hasReferences : Bool) (key : SetKey) (store : Store) :
    Entry × Store :=
  let ((searcher, hasG), store) := match key.ending with
    | some text =>
      if hasReferences then store.resolvedText engine text key.flavour
      else store.own engine pattern key.flavour
    | none => store.own engine pattern key.flavour
  ({ target := .leave, searcher := searcher, hasG := hasG }, store)

/-- Builds the set of a rule: the patterns inside it, and its end before or after them. -/
def buildRuleSet (key : SetKey) (store : Store) : PatternSet × Store :=
  let (entries, store) := entriesOf engine grammar key.flavour (grammar.candidates key.rule) store
  match grammar.rule key.rule with
  | .region rule =>
    let (ending, store) := endingEntry engine rule.stop rule.stopHasReferences key store
    (⟨if rule.stopLast then entries ++ [ending] else ending :: entries⟩, store)
  | _ => (⟨entries⟩, store)

/-- Builds the set of the condition of a rule. -/
def buildConditionSet (key : SetKey) (store : Store) : PatternSet × Store :=
  match grammar.rule key.rule with
  | .block rule =>
    let (ending, store) :=
      endingEntry engine rule.condition rule.conditionHasReferences key store
    (⟨[ending]⟩, store)
  | _ => (⟨[]⟩, store)

/-- The first match of the patterns of a rule. -/
def findInRule (line : SourceLine) (pos : Nat) (key : SetKey) (workspace : Workspace) :
    Option Match × Workspace :=
  let (set, store) := match workspace.ruleSets.get? key with
    | some set => (set, workspace.store)
    | none => buildRuleSet engine grammar key workspace.store
  let (found, set) := set.find line pos
  (found, { workspace with store := store, ruleSets := workspace.ruleSets.insert key set })

/-- The match of the condition of a frame. -/
def findCondition (line : SourceLine) (pos : Nat) (flavour : Flavour) (frame : Frame)
    (workspace : Workspace) : Option Match × Workspace :=
  let key : SetKey := ⟨frame.rule, flavour, frame.ending⟩
  let (set, store) := match workspace.conditionSets.get? key with
    | some set => (set, workspace.store)
    | none => buildConditionSet engine grammar key workspace.store
  let (found, set) := set.find line pos
  (found, { workspace with store := store, conditionSets := workspace.conditionSets.insert key set })

/-- The first match of injections, the best so far being given, and whether it comes before the rule at
the top. A match at the byte where the search starts cannot be bettered. -/
def findInjected (line : SourceLine) (pos : Nat) (flavour : Flavour) (scopes : List String)
    (best : Option (Bool × Match)) :
    List Injection → Workspace → Option (Bool × Match) × Workspace
  | [], workspace => (best, workspace)
  | injection :: injections, workspace =>
    if injection.matcher.holds scopes then
      let (found, workspace) :=
        findInRule engine grammar line pos ⟨injection.rule, flavour, none⟩ workspace
      match found.filter (better (best.map Prod.snd)) with
      | none => findInjected line pos flavour scopes best injections workspace
      | some found =>
        let best := some (decide (injection.priority = .left), found)
        if found.start = pos then (best, workspace)
        else findInjected line pos flavour scopes best injections workspace
    else findInjected line pos flavour scopes best injections workspace

/-- The winner among the match of the rule at the top and that of an injection. At the same start the
injection wins only if it comes before the rule. -/
def choose (own : Option Match) (injected : Option (Bool × Match)) : Option Match :=
  match own, injected with
  | own, none => own
  | none, some (_, injected) => some injected
  | some own, some (first, injected) =>
    if injected.start < own.start || (injected.start = own.start && first) then some injected
    else some own

/-- What matches next at or after a byte. -/
def findNext (line : SourceLine) (pos : Nat) (flavour : Flavour) (stack : Stack)
    (workspace : Workspace) : Option Match × Workspace :=
  let (own, workspace) :=
    findInRule engine grammar line pos ⟨stack.top.rule, flavour, stack.top.ending⟩ workspace
  if grammar.injections.isEmpty then (own, workspace)
  else
    let (injected, workspace) :=
      findInjected engine grammar line pos flavour stack.contentScopes.names none
        grammar.injections workspace
    (choose own injected, workspace)

/-- The finder that builds each set once for a line and remembers what was found. -/
def rememberingFinder : Finder Workspace where
  next := findNext engine grammar
  condition := findCondition engine grammar
  warn warning workspace := { workspace with store := workspace.store.warn warning }

end

end ScopeLexer.Line

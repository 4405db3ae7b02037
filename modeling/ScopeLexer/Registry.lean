import ScopeLexer.Disk
import ScopeLexer.Grammar.Compiler
import ScopeLexer.Grammar.SourceReader
import ScopeLexer.Tokenizer

/-!
Registries: the grammars that can be loaded, what is injected into them, how they are configured, and
the theme. Grammars are compiled when they are loaded, and read from their files when they are needed.
What has been compiled is kept until a grammar or an injection is added.
-/
namespace ScopeLexer

open Grammar Regex

/-- A compiled grammar that is kept. -/
structure KeptRules where
  serial : Nat
  grammar : CompiledGrammar

structure Registry where
  engine : Engine := backtracking
  theme : Theme := .plain
  /-- Grammars by scope name. -/
  sources : Table GrammarSource := {}
  /-- Files from which grammars are read when they are needed, by scope name. -/
  files : Table String := {}
  /-- Scope names of injected grammars, by the scope name of the grammar they are injected into. -/
  injections : Table (List String) := {}
  configs : Table GrammarConfig := {}
  /-- Compiled grammars, by scope name. -/
  rules : Table KeptRules := {}
  /-- Grammars ready for use, by scope name. -/
  tokenizers : Table Tokenizer := {}
  /-- The patterns of compiled grammars, by serial. -/
  patterns : Dictionary Nat (Array CachedPattern) := {}
  /-- The resolved patterns of tokenizers, by serial. -/
  resolved : Dictionary Nat (Dictionary String CachedPattern) := {}
  /-- The next serial to give out. -/
  nextSerial : Nat := 0
  journal : Journal := {}

namespace Registry

/-- Drops what has been compiled: it may depend on what has changed. -/
def invalidate (registry : Registry) : Registry :=
  { registry with rules := {}, tokenizers := {} }

/-- Notes that a grammar is injected into another. -/
def noteInjection (registry : Registry) (target injector : String) : Registry :=
  let injectors := (registry.injections.get? target).getD []
  if injectors.contains injector then registry
  else { registry with injections := registry.injections.insert target (injectors ++ [injector]) }

/-- Puts a grammar under its scope name, and notes what it is injected into. -/
def store (registry : Registry) (source : GrammarSource) : Registry :=
  let registry := source.injectTo.foldl (fun registry target =>
    noteInjection registry target source.scopeName) registry
  { registry with sources := registry.sources.insert source.scopeName source }

/-- Adds a grammar, in place of any other of its scope name. -/
def addGrammar (registry : Registry) (source : GrammarSource) : Registry :=
  (registry.store source).invalidate

/-- Adds a grammar that should have a scope name. -/
def addGrammarFor (registry : Registry) (scopeName : String) (source : GrammarSource) :
    Except Error Registry :=
  if source.scopeName = scopeName then .ok (registry.addGrammar source)
  else .error (.scopeMismatch scopeName source.scopeName)

/-- Adds the grammar in a file, and tells its scope name. -/
def addGrammarFile (registry : Registry) (disk : Disk) (path : String) :
    Except Error (String × Registry) := do
  let source ← disk.readDocument GrammarSource.ofText path
  return (source.scopeName, registry.addGrammar source)

/-- Lets a grammar be read from a file when it is needed. -/
def registerFile (registry : Registry) (scopeName path : String) : Registry :=
  { registry with files := registry.files.insert scopeName path }

def addInjection (registry : Registry) (target injector : String) : Registry :=
  (registry.noteInjection target injector).invalidate

def configure (registry : Registry) (scopeName : String) (config : GrammarConfig) : Registry :=
  { registry with
    configs := registry.configs.insert scopeName config
    tokenizers := registry.tokenizers.erase scopeName }

/-- Changes the theme, also for the grammars that have been loaded. -/
def setTheme (registry : Registry) (document : Theme.Document) : Registry :=
  let (theme, warnings) := Theme.ofDocument document
  { registry with theme := theme, journal := registry.journal.warnAll warnings }

/-- Changes the theme to the one in a file. -/
def setThemeFile (registry : Registry) (disk : Disk) (path : String) : Except Error Registry := do
  return registry.setTheme (← disk.readDocument Theme.Document.ofText path)

/-- The registry that a configuration describes. Grammars are read when they are needed, the theme at
once. -/
def ofConfig (disk : Disk) (config : RegistryConfig) : Except Error Registry :=
  let registry := config.grammars.entries.foldl (fun (registry : Registry) (scopeName, path) =>
    registry.registerFile scopeName path) {}
  let registry := config.injections.entries.foldl (fun registry (target, injectors) =>
    injectors.foldl (fun registry injector => addInjection registry target injector) registry)
    registry
  let registry := config.configurations.entries.foldl (fun registry (scopeName, config) =>
    configure registry scopeName config) registry
  match config.theme with
  | some path => registry.setThemeFile disk path
  | none => .ok registry

/-- The scope names of the grammars that can be loaded, in order. -/
def scopeNames (registry : Registry) : List String :=
  (Table.ofList ((registry.sources.keys ++ registry.files.keys).map (·, ()))).keys

def colors (registry : Registry) : List String := registry.theme.colorMap.colors.toList

/-- Looks up a grammar. If it has a file, it is read and kept. -/
def lookup (disk : Disk) (scopeName : String) :
    ExceptT Error (StateM Registry) (Option GrammarSource) := do
  let registry ← get
  match registry.sources.get? scopeName with
  | some source => return some source
  | none =>
    match registry.files.get? scopeName with
    | none => return none
    | some path =>
      let source ← disk.readDocument GrammarSource.ofText path
      if source.scopeName = scopeName then
        set (registry.store source)
        return some source
      else throw (.scopeMismatch scopeName source.scopeName)

def library (disk : Disk) : Library Registry where
  lookup := lookup disk
  injectors scopeName registry := (registry.injections.get? scopeName).getD []

/-- Enough rounds to load what a grammar needs: a round asks for something that was not asked for
before, and what can be asked for is named by a rule or by an injection. A file names no more than it
has characters. -/
def roundBound (registry : Registry) (disk : Disk) : Nat :=
  let inSources := registry.sources.values.foldr (fun source count => source.rules.size + count) 0
  let inFiles := registry.files.values.foldr (fun path count =>
    ((disk.read path).toOption.map String.length).getD 0 + count) 0
  let inInjections := registry.injections.values.foldr (fun names count => names.length + count) 0
  inSources + inFiles + inInjections + 2

/-- Compiles a grammar with all that it needs, unless it is kept. -/
def rulesFor (disk : Disk) (scopeName : String) :
    ExceptT Error (StateM Registry) (Option KeptRules) := do
  let registry ← get
  match registry.rules.get? scopeName with
  | some kept => return some kept
  | none =>
    match ← loadDependencies (library disk) (registry.roundBound disk) scopeName with
    | none => return none
    | some grammars =>
      let registry ← get
      let injectors := (registry.injections.get? scopeName).getD []
      match compile scopeName grammars injectors registry.engine registry.journal with
      | (.error error, journal) =>
        set { registry with journal := journal }
        throw (.compile error)
      | (.ok compilation, journal) =>
        let kept : KeptRules := ⟨registry.nextSerial, compilation.grammar⟩
        set { registry with
          rules := registry.rules.insert scopeName kept
          patterns := registry.patterns.insert kept.serial compilation.patterns
          nextSerial := registry.nextSerial + 1
          journal := journal }
        return some kept

/-- Makes a tokenizer from compiled rules. -/
def makeTokenizer (kept : KeptRules) (config : Option GrammarConfig) :
    ExceptT Error (StateM Registry) Tokenizer :=
  modifyGet fun registry =>
    ({ serial := registry.nextSerial
       rulesSerial := kept.serial
       grammar := kept.grammar
       config := config },
      { registry with nextSerial := registry.nextSerial + 1 })

/-- Loads a grammar, configured as its scope name is. It is made once, until something changes. Nothing
is given if no grammar has the scope name. -/
def loadM (disk : Disk) (scopeName : String) :
    ExceptT Error (StateM Registry) (Option Tokenizer) := do
  match (← get).tokenizers.get? scopeName with
  | some tokenizer => return some tokenizer
  | none =>
    match ← rulesFor disk scopeName with
    | none => return none
    | some kept =>
      let tokenizer ← makeTokenizer kept ((← get).configs.get? scopeName)
      modify fun registry =>
        { registry with tokenizers := registry.tokenizers.insert scopeName tokenizer }
      return some tokenizer

/-- Loads a grammar with a configuration of its own. It is made anew every time. -/
def loadWithM (disk : Disk) (scopeName : String) (config : GrammarConfig) :
    ExceptT Error (StateM Registry) (Option Tokenizer) := do
  match ← rulesFor disk scopeName with
  | none => return none
  | some kept => return some (← makeTokenizer kept (some config))

/-- Loads a grammar. The registry is given also if that fails. -/
def load (registry : Registry) (disk : Disk) (scopeName : String) :
    Except Error (Option Tokenizer) × Registry :=
  (loadM disk scopeName).run.run registry

/-- Loads a grammar with a configuration of its own. The registry is given also if that fails. -/
def loadWith (registry : Registry) (disk : Disk) (scopeName : String) (config : GrammarConfig) :
    Except Error (Option Tokenizer) × Registry :=
  (loadWithM disk scopeName config).run.run registry

/-- Tokenizes a line with a grammar loaded from the registry. -/
def tokenizeLine (registry : Registry) (tokenizer : Tokenizer) (state : Option Stack)
    (text : String) (clock : Clock) : ScannedLine × Registry :=
  let store : Pattern.Store := {
    patterns := (registry.patterns.get? tokenizer.rulesSerial).getD #[]
    resolved := (registry.resolved.get? tokenizer.serial).getD {}
    journal := registry.journal }
  let (scanned, store) :=
    tokenizer.scanLine registry.engine registry.theme state text clock store
  (scanned, { registry with
    patterns := registry.patterns.insert tokenizer.rulesSerial store.patterns
    resolved := registry.resolved.insert tokenizer.serial store.resolved
    journal := store.journal })

def tokenizeLines (registry : Registry) (tokenizer : Tokenizer) (clock : Clock) :
    Option Stack → List String → List ScannedLine × Registry
  | _, [] => ([], registry)
  | state, text :: texts =>
    let (scanned, registry) := registry.tokenizeLine tokenizer state text clock
    let (rest, registry) := registry.tokenizeLines tokenizer clock (some scanned.state) texts
    (scanned :: rest, registry)

def tokenizeText (registry : Registry) (tokenizer : Tokenizer) (clock : Clock) (text : String) :
    List ScannedLine × Registry :=
  registry.tokenizeLines tokenizer clock none (Text.lines text)

/-- The registry in the form that debug output has. -/
def describe (registry : Registry) : String :=
  "Registry \x7b scope_names: [" ++ ", ".intercalate (registry.scopeNames.map Text.quote) ++
    "], backend: OnigBackend, theme: " ++ registry.theme.describe ++ " \x7d"

end Registry
end ScopeLexer

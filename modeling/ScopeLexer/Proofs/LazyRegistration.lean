import ScopeLexer.Proofs.RegistryCoherence

/-! A file is as good as the grammar in it. Where a grammar could be added, letting it be read
from a file when it is needed gives the same loads from then on. The exception is what was kept
at that time and needs the grammar: registering a file does not drop it, so it stays without the
grammar until something else drops it. -/
namespace ScopeLexer

open Grammar Regex

namespace Registry

/-- A grammar comes up when another one is loaded: it is that grammar, or a rule of a grammar
that comes up names it, or it is injected into a grammar that comes up. -/
inductive Needs (registry : Registry) (start : String) : String → Prop where
  | start : Needs registry start start
  | named (needs : Needs registry start scopeName)
    (held : registry.sources.get? scopeName = some grammar) (member : rule ∈ grammar.rules)
    (refers : rule.reference = some text)
    (names : (Reference.ofText text).dependency? = some dependency) :
    Needs registry start dependency.scopeName
  | injected (needs : Needs registry start scopeName)
    (member : injector ∈ (registry.injections.get? scopeName).getD []) :
    Needs registry start injector

/-- Something compiled from a grammar is kept. -/
def Keeps (registry : Registry) (scopeName : String) : Prop :=
  (registry.rules.get? scopeName).isSome ∨ (registry.tokenizers.get? scopeName).isSome

variable {disk : Disk} {model other registry : Registry} {start : String}

theorem Needs.congr (needs : model.Needs start scopeName)
    (sources : ∀ scopeName, registry.sources.get? scopeName = model.sources.get? scopeName)
    (injections : registry.injections = model.injections) : registry.Needs start scopeName := by
  induction needs with
  | start => exact .start
  | named _ held member refers names ih =>
    exact .named ih ((sources _).trans held) member refers names
  | injected _ member ih => exact .injected ih (injections ▸ member)

/-- Two registries agree about what a grammar needs, if they have the same grammars there. -/
theorem agreement_of_needs (steady : model.Steady) (otherSteady : other.Steady)
    (injections : other.injections = model.injections)
    (same : ∀ scopeName, model.Needs start scopeName →
      other.sources.get? scopeName = model.sources.get? scopeName) :
    Agreement (fun left right => left = model ∧ right = other) (model.Needs start) (library disk)
      (library disk) where
  lookup scopeName needs := by
    rintro _ _ ⟨rfl, rfl⟩
    refine ⟨_, _, _, run_lookup steady disk scopeName, ?_, ⟨rfl, rfl⟩, ?_⟩
    · rw [← same scopeName needs]
      exact run_lookup otherSteady disk scopeName
    · rintro _ found grammar rfl rule member text dependency refers names
      exact .named needs (Except.ok.inj found) member refers names
  injectors := by
    rintro _ _ scopeName ⟨rfl, rfl⟩ needs
    refine ⟨?_, fun injector member => .injected needs member⟩
    simp only [library, injections]

/-- What a grammar is compiled to depends only on what it needs. -/
theorem compiled_congr (steady : model.Steady) (otherSteady : other.Steady)
    (engine : other.engine = model.engine) (injections : other.injections = model.injections)
    (same : ∀ scopeName, model.Needs start scopeName →
      other.sources.get? scopeName = model.sources.get? scopeName) :
    other.compiled disk start = model.compiled disk start := by
  let rounds := max (model.roundBound disk) (other.roundBound disk)
  obtain ⟨result, _, _, run, otherRun, _⟩ :=
    (agreement_of_needs steady otherSteady injections same).inStep_loadDependencies rounds .start
      model other ⟨rfl, rfl⟩
  rw [steady.rounds disk start (Nat.le_max_left _ _)] at run
  rw [otherSteady.rounds disk start (Nat.le_max_right _ _)] at otherRun
  rw [compiled, compiled, run, otherRun, injections, engine]

theorem addGrammar_eq_of_alone {grammar : GrammarSource} (alone : grammar.injectTo = []) :
    registry.addGrammar grammar = { registry with
      sources := registry.sources.insert grammar.scopeName grammar, rules := {}, tokenizers := {} } := by
  rw [Registry.addGrammar, store_eq, alone]
  rfl

/-- A registry that can read a grammar mirrors a model that has it. -/
theorem Mirrors.registerFile (mirrors : Mirrors disk model registry) {grammar : GrammarSource}
    (reads : disk.readDocument GrammarSource.ofText path = .ok grammar)
    (alone : grammar.injectTo = []) (new : registry.sources.get? grammar.scopeName = none) :
    Mirrors disk (model.addGrammar grammar) (registry.registerFile grammar.scopeName path) := by
  rw [addGrammar_eq_of_alone alone]
  refine ⟨mirrors.engine, mirrors.injections, fun scopeName held under => ?_,
    fun scopeName missing nowhere => ?_, fun scopeName other missing waits => ?_⟩
  · have elsewhere : scopeName ≠ grammar.scopeName := by
      rintro rfl
      cases new.symm.trans under
    exact (Table.get?_insert ..).trans ((if_neg elsewhere).trans (mirrors.held scopeName held under))
  · simp only [Registry.registerFile, Table.get?_insert] at nowhere ⊢
    split at nowhere
    · cases nowhere
    next elsewhere =>
      rw [if_neg elsewhere]
      exact mirrors.absent scopeName missing nowhere
  · simp only [Registry.registerFile, Table.get?_insert] at waits ⊢
    split at waits
    next same =>
      cases waits
      exact ⟨grammar, reads, alone, if_pos same⟩
    next elsewhere =>
      rw [if_neg elsewhere]
      exact mirrors.lent scopeName other missing waits

/-- Something is kept without a grammar that it needs. -/
def Stale (registry : Registry) (missing scopeName : String) : Prop :=
  registry.Keeps scopeName ∧ registry.Needs scopeName missing

/-- A registry that can read a grammar is coherent with a model that has it, except where it
keeps something that needs the grammar. -/
theorem Coherent.registerFile (steady : model.Steady)
    (coherent : Coherent disk model {} (fun _ => True) registry) {grammar : GrammarSource}
    (reads : disk.readDocument GrammarSource.ofText path = .ok grammar)
    (alone : grammar.injectTo = []) (new : registry.sources.get? grammar.scopeName = none) :
    Coherent disk (model.addGrammar grammar) (Table.insert {} grammar.scopeName path)
      (fun scopeName => ¬ registry.Stale grammar.scopeName scopeName)
      (registry.registerFile grammar.scopeName path) := by
  have sources (scopeName : String) :
      registry.sources.get? scopeName = model.sources.get? scopeName := by
    cases held : registry.sources.get? scopeName with
    | some grammar => exact (coherent.mirrors.held scopeName grammar held).symm
    | none =>
      refine (coherent.mirrors.absent scopeName held ?_).symm
      rw [coherent.files]
      rfl
  have uphold {scopeName : String} {kept : KeptRules} (keeps : registry.Keeps scopeName)
      (fresh : ¬ registry.Stale grammar.scopeName scopeName)
      (upholds : Upholds disk model registry scopeName kept) :
      Upholds disk (model.addGrammar grammar) (registry.registerFile grammar.scopeName path)
        scopeName kept := by
    refine ⟨upholds.serial, ?_⟩
    have same : (model.addGrammar grammar).compiled disk scopeName = model.compiled disk scopeName := by
      have steadyAfter := steady.addGrammar grammar
      rw [addGrammar_eq_of_alone alone] at steadyAfter ⊢
      refine compiled_congr steady steadyAfter rfl rfl fun other needs => ?_
      refine (Table.get?_insert ..).trans (if_neg ?_)
      rintro rfl
      exact fresh ⟨keeps, needs.congr sources coherent.mirrors.injections⟩
    rw [same]
    exact upholds.compiled
  have mirrors := coherent.mirrors.registerFile reads alone new
  rw [addGrammar_eq_of_alone alone] at mirrors uphold ⊢
  exact {
    mirrors := mirrors
    files := by rw [Registry.registerFile, coherent.files]
    theme := coherent.theme
    configs := coherent.configs
    rules := fun scopeName fresh kept held =>
      uphold (.inl (Option.isSome_of_eq_some held)) fresh (coherent.rules scopeName trivial kept held)
    tokenizers := fun scopeName fresh tokenizer held => by
      obtain ⟨upholds, made⟩ := coherent.tokenizers scopeName trivial tokenizer held
      exact ⟨uphold (.inr (Option.isSome_of_eq_some held)) fresh upholds, made⟩ }

end Registry

/-- After any operations on a new registry, letting a grammar that is injected into nothing be
read from a file gives the same loads as adding it, whatever is done later, if there is no
grammar of its scope name yet. Only what is kept and needs the grammar has to be dropped first. -/
theorem registered_file_serves (engine : Engine) (disk : Disk) (before later : List Operation)
    {grammar : GrammarSource} {path : String}
    (reads : disk.readDocument GrammarSource.ofText path = .ok grammar)
    (alone : grammar.injectTo = [])
    (new : (Operation.performAll disk { engine := engine } before).sources.get?
      grammar.scopeName = none) :
    let registry := Operation.performAll disk { engine := engine } before
    let lends := Operation.performAll disk (registry.registerFile grammar.scopeName path) later
    let holds := Operation.performAll disk (registry.addGrammar grammar) later
    ∀ scopeName, (registry.Stale grammar.scopeName scopeName →
        ∃ operation ∈ later, operation.drops disk = true) →
      Registry.shown (lends.load disk scopeName) = Registry.shown (holds.load disk scopeName) ∧
      ∀ config, Registry.shown (lends.loadWith disk scopeName config) =
        Registry.shown (holds.loadWith disk scopeName config) := by
  intro registry lends holds scopeName renewed
  obtain ⟨steady, coherent⟩ :=
    (Registry.coherent_new engine disk).performAll (Registry.steady_new engine) before
  have all : Registry.Coherent disk _ {} (fun _ => True) registry :=
    coherent.mono fun _ _ => .inl trivial
  have steadyAfter := steady.addGrammar grammar
  obtain ⟨steadyLater, lent⟩ := (all.registerFile steady reads alone new).performAll steadyAfter later
  obtain ⟨_, held⟩ := (all.addGrammar grammar fun _ => True).performAll steadyAfter later
  exact lent.shown_eq steadyLater held (not_or_of_imp renewed) (.inl trivial)

namespace Letters

/-- A grammar that is first missing. -/
def letters : GrammarSource where
  scopeName := "source.b"
  patterns := [0]
  rules := #[{ matchPattern := some "b", name := some "letter" }]

def outer : GrammarSource where
  scopeName := "source.a"
  patterns := [0]
  rules := #[{ reference := some "source.b" }]

def disk : Disk := (FileTree.ofFiles "/grammars" [("letters.json",
  "\x7b\"scopeName\": \"source.b\", \"patterns\": [\x7b\"match\": \"b\", \"name\": \"letter\"\x7d]\x7d")]).toDisk

/-- The document is read as the grammar. -/
theorem reads : disk.readDocument GrammarSource.ofText "letters.json" = .ok letters := by
  have read : (disk.readDocument GrammarSource.ofText "letters.json").toOption = some letters := by
    decide +kernel
  cases result : disk.readDocument GrammarSource.ofText "letters.json" with
  | error error =>
    rw [result] at read
    cases read
  | ok grammar =>
    rw [result] at read
    cases read
    rfl

/-- The outer grammar is loaded before there is the one that it names. -/
def early : List Operation := [.addGrammar outer, .load "source.a"]

/-- The number of rules of the outer grammar. -/
def ruleCount (shown : Except Error (Option Offer)) : Option Nat :=
  shown.toOption.join.map (·.grammar.rules.size)

end Letters

/-- An injection drops what was loaded without the grammar. -/
theorem registered_file_serves_letters :
    Letters.disk.readDocument GrammarSource.ofText "letters.json" = .ok Letters.letters ∧
    Letters.letters.injectTo = [] ∧
    (Operation.performAll Letters.disk { engine := backtracking } Letters.early).sources.get?
      "source.b" = none ∧
    let registry := Operation.performAll Letters.disk { engine := backtracking } Letters.early
    let later : List Operation := [.addInjection "source.a" "source.c", .load "source.a"]
    let lends := Operation.performAll Letters.disk (registry.registerFile "source.b" "letters.json") later
    let holds := Operation.performAll Letters.disk (registry.addGrammar Letters.letters) later
    ∀ scopeName, Registry.shown (lends.load Letters.disk scopeName) =
      Registry.shown (holds.load Letters.disk scopeName) := by
  have new : (Operation.performAll Letters.disk { engine := backtracking }
      Letters.early).sources.get? "source.b" = none := by decide +kernel
  refine ⟨Letters.reads, rfl, new, ?_⟩
  intro registry later lends holds scopeName
  exact (registered_file_serves backtracking Letters.disk Letters.early later Letters.reads rfl new
    scopeName fun _ => ⟨_, List.mem_cons_self, rfl⟩).1

/-- What was loaded without a grammar stays so when a file for the grammar is registered, though
not when the grammar is added. -/
theorem registered_file_unnoticed :
    Letters.disk.readDocument GrammarSource.ofText "letters.json" = .ok Letters.letters ∧
    Letters.letters.injectTo = [] ∧
    let registry := Operation.performAll Letters.disk { engine := backtracking } Letters.early
    registry.sources.get? Letters.letters.scopeName = none ∧
    Registry.shown ((registry.registerFile "source.b" "letters.json").load Letters.disk "source.a") ≠
      Registry.shown ((registry.addGrammar Letters.letters).load Letters.disk "source.a") := by
  refine ⟨Letters.reads, rfl, by decide +kernel, fun same => ?_⟩
  have counts := congrArg Letters.ruleCount same
  revert counts
  decide +kernel

end ScopeLexer

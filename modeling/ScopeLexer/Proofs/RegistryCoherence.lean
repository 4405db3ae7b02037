import ScopeLexer.Proofs.LentGrammars

/-! What a registry keeps never shows. A load gives what the registry would give had nothing
been loaded from it before: what is kept was compiled from the grammars and injections that
are there now, since whatever changes these drops it, and a tokenizer that is kept has the
configuration of its scope name, since a new configuration drops it. -/
namespace ScopeLexer

open Grammar Regex

/-- An erased key has no value; the other keys keep theirs. -/
theorem Table.get?_erase (table : Table α) (key asked : String) :
    (table.erase key).get? asked = if asked = key then none else table.get? asked := by
  obtain ⟨entries⟩ := table
  simp only [Table.erase, Table.get?]
  induction entries with
  | nil => simp
  | cons entry rest ih =>
    obtain ⟨held, value⟩ := entry
    by_cases dropped : held = key
    · rw [List.filter_cons_of_neg (by simp [dropped]), ih, Dictionary.lookup_entry, dropped]
      by_cases here : asked = key <;> simp [here]
    · rw [List.filter_cons_of_pos (by simp [dropped]), Dictionary.lookup_entry,
        Dictionary.lookup_entry, ih]
      by_cases here : asked = held <;> simp [here, dropped]

/-- What a load gives: compiled rules with their patterns, a configuration, the room for groups
inside groups, and the theme and the engine that lines are tokenized with. -/
structure Offer where
  grammar : CompiledGrammar
  patterns : Option (Array CachedPattern)
  config : Option GrammarConfig
  depth : Nat
  theme : Theme
  engine : Engine

namespace Registry

/-- What a tokenizer of a registry offers. -/
def offer (registry : Registry) (tokenizer : Tokenizer) : Offer where
  grammar := tokenizer.grammar
  patterns := registry.patterns.get? tokenizer.rulesSerial
  config := tokenizer.config
  depth := tokenizer.depth
  theme := registry.theme
  engine := registry.engine

/-- What a load comes to. -/
def shown (result : Except Error (Option Tokenizer) × Registry) : Except Error (Option Offer) :=
  result.1.map (Option.map result.2.offer)

/-- What a load comes to when nothing is kept. -/
def answer (model : Registry) (disk : Disk) (scopeName : String) (config : Option GrammarConfig) :
    Except Error (Option Offer) :=
  (model.compiled disk scopeName).map (Option.map fun compilation =>
    { grammar := compilation.grammar
      patterns := some compilation.patterns
      config := config
      depth := Tokenizer.usualDepth
      theme := model.theme
      engine := model.engine })

/-- Compiled rules that a registry keeps are those that its model would compile. -/
structure Upholds (disk : Disk) (model registry : Registry) (scopeName : String) (kept : KeptRules) :
    Prop where
  serial : kept.serial < registry.nextSerial
  compiled : ∃ patterns, registry.patterns.get? kept.serial = some patterns ∧
    model.compiled disk scopeName = .ok (some ⟨kept.grammar, patterns⟩)

/-- A registry with some files mirrors a model. What it keeps of some of the grammars is what
the model would compile. -/
structure Coherent (disk : Disk) (model : Registry) (lent : Table String) (Fresh : String → Prop)
    (registry : Registry) : Prop where
  mirrors : Mirrors disk model registry
  files : registry.files = lent
  theme : registry.theme = model.theme
  configs : registry.configs = model.configs
  rules : ∀ scopeName, Fresh scopeName → ∀ kept, registry.rules.get? scopeName = some kept →
    Upholds disk model registry scopeName kept
  tokenizers : ∀ scopeName, Fresh scopeName → ∀ tokenizer,
    registry.tokenizers.get? scopeName = some tokenizer →
      Upholds disk model registry scopeName ⟨tokenizer.rulesSerial, tokenizer.grammar⟩ ∧
        tokenizer.config = registry.configs.get? scopeName ∧ tokenizer.depth = Tokenizer.usualDepth

variable {disk : Disk} {model registry after : Registry} {lent : Table String}
  {Fresh : String → Prop} {scopeName : String}

/-- Kept rules stay in force while only new serials are given out. -/
theorem Upholds.later (upholds : Upholds disk model registry scopeName kept)
    (serials : registry.nextSerial ≤ after.nextSerial)
    (patterns : ∀ serial < registry.nextSerial,
      after.patterns.get? serial = registry.patterns.get? serial) :
    Upholds disk model after scopeName kept where
  serial := Nat.lt_of_lt_of_le upholds.serial serials
  compiled := by
    obtain ⟨held, found, compiled⟩ := upholds.compiled
    exact ⟨held, (patterns _ upholds.serial).trans found, compiled⟩

/-- What compiled rules are asked for comes to. -/
inductive Answers (disk : Disk) (model registry : Registry) (scopeName : String) :
    Except Error (Option KeptRules) → Prop where
  | failed (compiled : model.compiled disk scopeName = .error error) :
    Answers disk model registry scopeName (.error error)
  | missing (compiled : model.compiled disk scopeName = .ok none) :
    Answers disk model registry scopeName (.ok none)
  | found (upholds : Upholds disk model registry scopeName kept) :
    Answers disk model registry scopeName (.ok (some kept))

/-- A registry stays coherent if what it gets to keep is in force. -/
theorem Coherent.later (coherent : Coherent disk model lent Fresh registry)
    (mirrors : Mirrors disk model after) (files : after.files = registry.files)
    (theme : after.theme = registry.theme) (configs : after.configs = registry.configs)
    (serials : registry.nextSerial ≤ after.nextSerial)
    (patterns : ∀ serial < registry.nextSerial,
      after.patterns.get? serial = registry.patterns.get? serial)
    (rules : ∀ scopeName, Fresh scopeName → ∀ kept, after.rules.get? scopeName = some kept →
      registry.rules.get? scopeName = some kept ∨ Upholds disk model after scopeName kept)
    (tokenizers : ∀ scopeName, Fresh scopeName → ∀ tokenizer,
      after.tokenizers.get? scopeName = some tokenizer →
        registry.tokenizers.get? scopeName = some tokenizer ∨
          Upholds disk model after scopeName ⟨tokenizer.rulesSerial, tokenizer.grammar⟩ ∧
            tokenizer.config = after.configs.get? scopeName ∧
            tokenizer.depth = Tokenizer.usualDepth) :
    Coherent disk model lent Fresh after where
  mirrors := mirrors
  files := files.trans coherent.files
  theme := theme.trans coherent.theme
  configs := configs.trans coherent.configs
  rules scopeName fresh kept held := by
    rcases rules scopeName fresh kept held with old | new
    · exact (coherent.rules scopeName fresh kept old).later serials patterns
    · exact new
  tokenizers scopeName fresh tokenizer held := by
    rcases tokenizers scopeName fresh tokenizer held with old | new
    · obtain ⟨upholds, config, depth⟩ := coherent.tokenizers scopeName fresh tokenizer old
      exact ⟨upholds.later serials patterns, config.trans (by rw [configs]), depth⟩
    · exact new

theorem Coherent.mono {Fewer : String → Prop} (coherent : Coherent disk model lent Fresh registry)
    (fewer : ∀ scopeName, Fewer scopeName → Fresh scopeName) :
    Coherent disk model lent Fewer registry where
  mirrors := coherent.mirrors
  files := coherent.files
  theme := coherent.theme
  configs := coherent.configs
  rules scopeName fresh := coherent.rules scopeName (fewer scopeName fresh)
  tokenizers scopeName fresh := coherent.tokenizers scopeName (fewer scopeName fresh)

/-- Reading grammars that the model has. -/
theorem Coherent.reread (coherent : Coherent disk model lent Fresh registry) {sources : Table GrammarSource}
    (mirrors : Mirrors disk model { registry with sources := sources }) (journal : Journal) :
    Coherent disk model lent Fresh { registry with sources := sources, journal := journal } :=
  coherent.later (mirrors.congr rfl rfl rfl rfl) rfl rfl rfl (Nat.le_refl _) (fun _ _ => rfl)
    (fun _ _ _ held => .inl held) fun _ _ _ held => .inl held

/-- Keeping what has just been compiled. -/
theorem Coherent.keep (coherent : Coherent disk model lent Fresh registry)
    (compiled : model.compiled disk scopeName = .ok (some compilation)) :
    let kept : KeptRules := ⟨registry.nextSerial, compilation.grammar⟩
    let after : Registry := { registry with
      rules := registry.rules.insert scopeName kept
      patterns := registry.patterns.insert kept.serial compilation.patterns
      nextSerial := registry.nextSerial + 1 }
    Coherent disk model lent Fresh after ∧ Upholds disk model after scopeName kept := by
  intro kept after
  have new : Upholds disk model after scopeName kept :=
    ⟨Nat.lt_succ_self _, compilation.patterns, (Dictionary.get?_insert ..).trans (if_pos rfl), compiled⟩
  refine ⟨?_, new⟩
  refine coherent.later (coherent.mirrors.congr rfl rfl rfl rfl) rfl rfl rfl (Nat.le_succ _)
    (fun serial below => ?_) (fun other _ held under => ?_) fun _ _ _ held => .inl held
  · exact (Dictionary.get?_insert ..).trans (if_neg (Nat.ne_of_lt below))
  · rw [Table.get?_insert] at under
    split at under
    next same =>
      cases under
      exact .inr (same ▸ new)
    next => exact .inl under

/-- Giving out a serial for a tokenizer. -/
theorem Coherent.next (coherent : Coherent disk model lent Fresh registry) :
    Coherent disk model lent Fresh { registry with nextSerial := registry.nextSerial + 1 } :=
  coherent.later (coherent.mirrors.congr rfl rfl rfl rfl) rfl rfl rfl (Nat.le_succ _) (fun _ _ => rfl)
    (fun _ _ _ held => .inl held) fun _ _ _ held => .inl held

/-- Compiled rules are those of the model, whether they are kept or not. -/
theorem Coherent.run_rulesFor (steady : model.Steady)
    (coherent : Coherent disk model lent Fresh registry) (scopeName : String) : ∃ result after,
      (rulesFor disk scopeName).run.run registry = (result, after) ∧
      Coherent disk model lent Fresh after ∧
      (Fresh scopeName → Answers disk model after scopeName result) := by
  rw [rulesFor, run_bind, run_get]
  cases held : registry.rules.get? scopeName with
  | some kept =>
    refine ⟨.ok (some kept), registry, ?_, coherent, fun fresh =>
      .found (coherent.rules scopeName fresh kept held)⟩
    simp only [held]
    rfl
  | none =>
    obtain ⟨result, sources, run, otherRun, mirrors⟩ := coherent.mirrors.loads steady scopeName
    simp only [held]
    rw [run_bind, otherRun]
    have reread := coherent.reread mirrors
    rcases result with error | _ | grammars
    · exact ⟨_, _, rfl, reread registry.journal, fun _ => .failed (by rw [compiled, run])⟩
    · exact ⟨_, _, rfl, reread registry.journal, fun _ => .missing (by rw [compiled, run])⟩
    · have same := compile_heedless scopeName grammars ((registry.injections.get? scopeName).getD [])
        registry.engine registry.journal {}
      simp only
      rw [run_bind, run_get]
      simp only
      rcases made : compile scopeName grammars ((registry.injections.get? scopeName).getD [])
        registry.engine registry.journal with ⟨error | compilation, journal⟩
      all_goals
        rw [made, coherent.mirrors.injections, coherent.mirrors.engine] at same
      · have compiled : model.compiled disk scopeName = .error (.compile error) := by
          rw [compiled, run]
          simp only [← same]
        exact ⟨_, _, rfl, reread journal, fun _ => .failed compiled⟩
      · have compiled : model.compiled disk scopeName = .ok (some compilation) := by
          rw [compiled, run]
          simp only [← same]
        obtain ⟨kept, upholds⟩ := (reread journal).keep compiled
        exact ⟨_, _, rfl, kept, fun _ => .found upholds⟩

/-- A tokenizer of upheld rules offers what the model answers. -/
theorem Upholds.shown_eq {tokenizer : Tokenizer}
    (upholds : Upholds disk model registry scopeName ⟨tokenizer.rulesSerial, tokenizer.grammar⟩)
    (coherent : Coherent disk model lent Fresh registry)
    (depth : tokenizer.depth = Tokenizer.usualDepth) :
    shown (.ok (some tokenizer), registry) = model.answer disk scopeName tokenizer.config := by
  obtain ⟨patterns, found, compiled⟩ := upholds.compiled
  simp only [shown, answer, compiled, Except.map, Option.map_some, offer, found, depth,
    coherent.theme, coherent.mirrors.engine]

/-- A load with a configuration gives what it would if nothing were kept. -/
theorem Coherent.loadWith (steady : model.Steady) (coherent : Coherent disk model lent Fresh registry)
    (scopeName : String) (config : GrammarConfig) :
    (Fresh scopeName → shown (registry.loadWith disk scopeName config) =
        model.answer disk scopeName (some config)) ∧
      Coherent disk model lent Fresh (registry.loadWith disk scopeName config).2 := by
  obtain ⟨result, after, run, coherent, answers⟩ := coherent.run_rulesFor steady scopeName
  rw [Registry.loadWith, loadWithM, run_bind, run]
  constructor
  · intro fresh
    cases answers fresh with
    | failed compiled =>
      rw [answer, compiled]
      rfl
    | missing compiled =>
      rw [answer, compiled]
      rfl
    | @found kept upholds =>
      let tokenizer : Tokenizer := {
        serial := after.nextSerial, rulesSerial := kept.serial, grammar := kept.grammar, config := config }
      have later : Upholds disk model { after with nextSerial := after.nextSerial + 1 } scopeName
          ⟨tokenizer.rulesSerial, tokenizer.grammar⟩ :=
        upholds.later (Nat.le_succ _) fun _ _ => rfl
      exact later.shown_eq coherent.next rfl
  · rcases result with error | _ | kept
    · exact coherent
    · exact coherent
    · exact coherent.next

/-- Keeping a tokenizer that is made from compiled rules. -/
theorem Coherent.keepTokenizer (coherent : Coherent disk model lent Fresh registry)
    (upholds : Fresh scopeName → Upholds disk model registry scopeName kept) :
    let tokenizer : Tokenizer := {
      serial := registry.nextSerial
      rulesSerial := kept.serial
      grammar := kept.grammar
      config := registry.configs.get? scopeName }
    let after : Registry := { registry with
      nextSerial := registry.nextSerial + 1
      tokenizers := registry.tokenizers.insert scopeName tokenizer }
    Coherent disk model lent Fresh after ∧
      (Fresh scopeName → Upholds disk model after scopeName kept) := by
  intro tokenizer after
  have later (fresh : Fresh scopeName) : Upholds disk model after scopeName kept :=
    (upholds fresh).later (Nat.le_succ _) fun _ _ => rfl
  refine ⟨?_, later⟩
  refine coherent.later (coherent.mirrors.congr rfl rfl rfl rfl) rfl rfl rfl (Nat.le_succ _)
    (fun _ _ => rfl) (fun _ _ _ held => .inl held) fun other fresh held under => ?_
  rw [Table.get?_insert] at under
  split at under
  next same =>
    cases under
    subst same
    exact .inr ⟨later fresh, rfl, rfl⟩
  next => exact .inl under

/-- A load gives what it would if nothing were kept. -/
theorem Coherent.load (steady : model.Steady) (coherent : Coherent disk model lent Fresh registry)
    (scopeName : String) :
    (Fresh scopeName → shown (registry.load disk scopeName) =
        model.answer disk scopeName (model.configs.get? scopeName)) ∧
      Coherent disk model lent Fresh (registry.load disk scopeName).2 := by
  rw [Registry.load, loadM, run_bind, run_get]
  cases held : registry.tokenizers.get? scopeName with
  | some tokenizer =>
    simp only [held]
    refine ⟨fun fresh => ?_, coherent⟩
    obtain ⟨upholds, config, depth⟩ := coherent.tokenizers scopeName fresh tokenizer held
    rw [coherent.configs] at config
    exact config ▸ upholds.shown_eq coherent depth
  | none =>
    obtain ⟨result, after, run, coherent, answers⟩ := coherent.run_rulesFor steady scopeName
    simp only [held]
    rw [run_bind, run]
    rcases result with error | _ | kept
    · refine ⟨fun fresh => ?_, coherent⟩
      cases answers fresh with
      | failed compiled =>
        rw [answer, compiled]
        rfl
    · refine ⟨fun fresh => ?_, coherent⟩
      cases answers fresh with
      | missing compiled =>
        rw [answer, compiled]
        rfl
    · have upholds (fresh : Fresh scopeName) : Upholds disk model after scopeName kept := by
        cases answers fresh with
        | found upholds => exact upholds
      obtain ⟨last, later⟩ := coherent.keepTokenizer upholds
      refine ⟨fun fresh => ?_, last⟩
      let tokenizer : Tokenizer := {
        serial := after.nextSerial
        rulesSerial := kept.serial
        grammar := kept.grammar
        config := after.configs.get? scopeName }
      have upholds : Upholds disk model _ scopeName ⟨tokenizer.rulesSerial, tokenizer.grammar⟩ :=
        later fresh
      rw [← coherent.configs]
      exact upholds.shown_eq last rfl

/-- The injections with one more, unless it is there. -/
def withInjection (injections : Table (List String)) (target injector : String) :
    Table (List String) :=
  let injectors := (injections.get? target).getD []
  if injectors.contains injector then injections
  else injections.insert target (injectors ++ [injector])

theorem noteInjection_eq (registry : Registry) (target injector : String) :
    registry.noteInjection target injector =
      { registry with injections := withInjection registry.injections target injector } := by
  unfold noteInjection withInjection
  simp only
  split <;> rfl

/-- Storing a grammar changes what is injected and the grammar under its scope name. -/
theorem store_eq (registry : Registry) (source : GrammarSource) :
    registry.store source = { registry with
      injections := source.injectTo.foldl (fun injections target =>
        withInjection injections target source.scopeName) registry.injections
      sources := registry.sources.insert source.scopeName source } := by
  have noted (targets : List String) (registry : Registry) :
      targets.foldl (fun registry target => noteInjection registry target source.scopeName)
          registry =
        { registry with injections := targets.foldl (fun injections target =>
          withInjection injections target source.scopeName) registry.injections } := by
    induction targets generalizing registry with
    | nil => rfl
    | cons target targets ih => rw [List.foldl_cons, ih, noteInjection_eq, List.foldl_cons]
  rw [store, noted]

/-- Adding a grammar to both keeps the registry a mirror of the model. -/
theorem Mirrors.addGrammar (mirrors : Mirrors disk model registry) (source : GrammarSource) :
    Mirrors disk (model.addGrammar source) (registry.addGrammar source) := by
  rw [Registry.addGrammar, Registry.addGrammar, store_eq, store_eq]
  refine ⟨mirrors.engine, ?_, ?_, ?_, ?_⟩
  · simp only [invalidate, mirrors.injections]
  · intro other held under
    simp only [invalidate, Table.get?_insert] at under ⊢
    by_cases same : other = source.scopeName
    · rw [if_pos same] at under ⊢
      exact under
    · rw [if_neg same] at under ⊢
      exact mirrors.held other held under
  · intro other missing nowhere
    simp only [invalidate, Table.get?_insert] at missing ⊢
    by_cases same : other = source.scopeName
    · rw [if_pos same] at missing
      cases missing
    · rw [if_neg same] at missing ⊢
      exact mirrors.absent other missing nowhere
  · intro other path missing waits
    simp only [invalidate, Table.get?_insert] at missing ⊢
    by_cases same : other = source.scopeName
    · rw [if_pos same] at missing
      cases missing
    · rw [if_neg same] at missing ⊢
      exact mirrors.lent other path missing waits

/-- A registry that keeps nothing is coherent if it is a mirror. -/
theorem Coherent.of_nothing_kept (mirrors : Mirrors disk model registry)
    (files : registry.files = lent) (theme : registry.theme = model.theme) (configs : registry.configs = model.configs)
    (rules : registry.rules = {}) (tokenizers : registry.tokenizers = {}) :
    Coherent disk model lent Fresh registry where
  mirrors := mirrors
  files := files
  theme := theme
  configs := configs
  rules scopeName _ kept held := by
    rw [rules] at held
    cases held
  tokenizers scopeName _ tokenizer held := by
    rw [tokenizers] at held
    cases held

theorem Coherent.addGrammar (coherent : Coherent disk model lent Fresh registry)
    (source : GrammarSource) (Renewed : String → Prop) :
    Coherent disk (model.addGrammar source) lent Renewed (registry.addGrammar source) := by
  refine .of_nothing_kept (coherent.mirrors.addGrammar source) ?_ ?_ ?_ rfl rfl
  · rw [Registry.addGrammar, store_eq]
    exact coherent.files
  · rw [Registry.addGrammar, Registry.addGrammar, store_eq, store_eq]
    exact coherent.theme
  · rw [Registry.addGrammar, Registry.addGrammar, store_eq, store_eq]
    exact coherent.configs

theorem Coherent.addInjection (coherent : Coherent disk model lent Fresh registry)
    (target injector : String) (Renewed : String → Prop) :
    Coherent disk (model.addInjection target injector) lent Renewed
      (registry.addInjection target injector) := by
  rw [Registry.addInjection, Registry.addInjection, noteInjection_eq, noteInjection_eq]
  refine .of_nothing_kept ⟨coherent.mirrors.engine, ?_, coherent.mirrors.held,
    coherent.mirrors.absent, coherent.mirrors.lent⟩ coherent.files coherent.theme coherent.configs
    rfl rfl
  simp only [invalidate, coherent.mirrors.injections]

/-- A new model that compiles everything as the old one upholds the same. -/
theorem Upholds.congr {other : Registry} (upholds : Upholds disk model registry scopeName kept)
    (steady : model.Steady) (mirrors : Mirrors disk model other)
    (serials : after.nextSerial = registry.nextSerial)
    (patterns : after.patterns = registry.patterns) : Upholds disk other after scopeName kept where
  serial := serials ▸ upholds.serial
  compiled := by
    rw [mirrors.compiled_eq steady, patterns]
    exact upholds.compiled

/-- A configuration throws away the rules that are kept, so what is kept stays right. -/
theorem Coherent.configure (steady : model.Steady) (coherent : Coherent disk model lent Fresh registry)
    (scopeName : String) (config : GrammarConfig) :
    Coherent disk (model.configure scopeName config) lent Fresh (registry.configure scopeName config) where
  mirrors := ⟨coherent.mirrors.engine, coherent.mirrors.injections, coherent.mirrors.held,
    coherent.mirrors.absent, coherent.mirrors.lent⟩
  files := coherent.files
  theme := coherent.theme
  configs := by
    simp only [Registry.configure, coherent.configs]
  rules other fresh kept held :=
    (coherent.rules other fresh kept held).congr steady (steady.mirrors.congr rfl rfl rfl rfl) rfl rfl
  tokenizers other fresh tokenizer held := by
    simp only [Registry.configure, Table.get?_erase, Table.get?_insert] at held ⊢
    split at held
    · cases held
    next differ =>
      obtain ⟨upholds, made⟩ := coherent.tokenizers other fresh tokenizer held
      rw [if_neg differ]
      exact ⟨upholds.congr steady (steady.mirrors.congr rfl rfl rfl rfl) rfl rfl, made⟩

theorem Coherent.setTheme (steady : model.Steady) (coherent : Coherent disk model lent Fresh registry)
    (document : Theme.Document) :
    Coherent disk (model.setTheme document) lent Fresh (registry.setTheme document) where
  mirrors := ⟨coherent.mirrors.engine, coherent.mirrors.injections, coherent.mirrors.held,
    coherent.mirrors.absent, coherent.mirrors.lent⟩
  files := coherent.files
  theme := rfl
  configs := coherent.configs
  rules other fresh kept held :=
    (coherent.rules other fresh kept held).congr steady (steady.mirrors.congr rfl rfl rfl rfl) rfl rfl
  tokenizers other fresh tokenizer held := by
    obtain ⟨upholds, made⟩ := coherent.tokenizers other fresh tokenizer held
    exact ⟨upholds.congr steady (steady.mirrors.congr rfl rfl rfl rfl) rfl rfl, made⟩

end Registry

/-- What can be done with a registry. -/
inductive Operation where
  | addGrammar (source : GrammarSource)
  | addGrammarFor (scopeName : String) (source : GrammarSource)
  | addGrammarFile (path : String)
  | addInjection (target injector : String)
  | configure (scopeName : String) (config : GrammarConfig)
  | setTheme (document : Theme.Document)
  | setThemeFile (path : String)
  | load (scopeName : String)
  | loadWith (scopeName : String) (config : GrammarConfig)

namespace Operation

/-- Whether an operation is there to change the registry, and not for what it gives. -/
def changes : Operation → Bool
  | .load _ | .loadWith _ _ => false
  | _ => true

/-- Whether an operation drops what is kept. -/
def drops (disk : Disk) : Operation → Bool
  | .addGrammar _ | .addInjection _ _ => true
  | .addGrammarFor scopeName source => source.scopeName = scopeName
  | .addGrammarFile path => (disk.readDocument GrammarSource.ofText path).isOk
  | _ => false

/-- The registry that an operation leaves, also if it fails. -/
def perform (disk : Disk) (registry : Registry) : Operation → Registry
  | .addGrammar source => registry.addGrammar source
  | .addGrammarFor scopeName source => (registry.addGrammarFor scopeName source).toOption.getD registry
  | .addGrammarFile path =>
    ((registry.addGrammarFile disk path).toOption.map Prod.snd).getD registry
  | .addInjection target injector => registry.addInjection target injector
  | .configure scopeName config => registry.configure scopeName config
  | .setTheme document => registry.setTheme document
  | .setThemeFile path => (registry.setThemeFile disk path).toOption.getD registry
  | .load scopeName => (registry.load disk scopeName).2
  | .loadWith scopeName config => (registry.loadWith disk scopeName config).2

/-- The registry that operations leave, one after the other. -/
def performAll (disk : Disk) (registry : Registry) (operations : List Operation) : Registry :=
  operations.foldl (perform disk) registry

end Operation

namespace Registry

variable {disk : Disk} {model registry : Registry} {lent : Table String} {Fresh : String → Prop}

theorem addGrammarFor_cases (registry : Registry) (scopeName : String) (source : GrammarSource) :
    (registry.addGrammarFor scopeName source).toOption.getD registry =
      if source.scopeName = scopeName then registry.addGrammar source else registry := by
  unfold addGrammarFor
  split <;> rfl

theorem addGrammarFile_cases (registry : Registry) (disk : Disk) (path : String) :
    ((registry.addGrammarFile disk path).toOption.map Prod.snd).getD registry =
      ((disk.readDocument GrammarSource.ofText path).toOption.map registry.addGrammar).getD
        registry := by
  unfold addGrammarFile
  cases disk.readDocument GrammarSource.ofText path <;> rfl

theorem setThemeFile_cases (registry : Registry) (disk : Disk) (path : String) :
    (registry.setThemeFile disk path).toOption.getD registry =
      ((disk.readDocument Theme.Document.ofText path).toOption.map registry.setTheme).getD
        registry := by
  unfold setThemeFile
  cases disk.readDocument Theme.Document.ofText path <;> rfl

theorem Steady.addInjection (steady : model.Steady) (target injector : String) :
    (model.addInjection target injector).Steady := by
  rw [Registry.addInjection, noteInjection_eq]
  exact ⟨steady.keyed, steady.read⟩

/-- A change of the model and of the registry. -/
theorem Coherent.change (steady : model.Steady) (coherent : Coherent disk model lent Fresh registry)
    {operation : Operation} (changes : operation.changes = true) :
    (operation.perform disk model).Steady ∧
      Coherent disk (operation.perform disk model) lent
        (fun scopeName => Fresh scopeName ∨ operation.drops disk = true)
        (operation.perform disk registry) := by
  have unchanged {model registry : Registry} (coherent : Coherent disk model lent Fresh registry)
      {dropped : Bool} (keeps : dropped = false) :
      Coherent disk model lent (fun scopeName => Fresh scopeName ∨ dropped = true) registry :=
    coherent.mono fun scopeName fresh => fresh.resolve_right (by simp [keeps])
  cases operation with
  | addGrammar source => exact ⟨steady.addGrammar source, coherent.addGrammar source _⟩
  | addGrammarFor scopeName source =>
    simp only [Operation.perform, addGrammarFor_cases]
    split
    · exact ⟨steady.addGrammar source, coherent.addGrammar source _⟩
    next other => exact ⟨steady, unchanged coherent (decide_eq_false other)⟩
  | addGrammarFile path =>
    simp only [Operation.perform, addGrammarFile_cases, Operation.drops]
    cases disk.readDocument GrammarSource.ofText path with
    | error error => exact ⟨steady, unchanged coherent rfl⟩
    | ok source => exact ⟨steady.addGrammar source, coherent.addGrammar source _⟩
  | addInjection target injector =>
    exact ⟨steady.addInjection target injector, coherent.addInjection target injector _⟩
  | configure scopeName config =>
    exact ⟨⟨steady.keyed, steady.read⟩, unchanged (coherent.configure steady scopeName config) rfl⟩
  | setTheme document =>
    exact ⟨⟨steady.keyed, steady.read⟩, unchanged (coherent.setTheme steady document) rfl⟩
  | setThemeFile path =>
    simp only [Operation.perform, setThemeFile_cases]
    cases disk.readDocument Theme.Document.ofText path with
    | error error => exact ⟨steady, unchanged coherent rfl⟩
    | ok document =>
      exact ⟨⟨steady.keyed, steady.read⟩, unchanged (coherent.setTheme steady document) rfl⟩
  | load scopeName => cases changes
  | loadWith scopeName config => cases changes

/-- A load leaves a registry with the same model. -/
theorem Coherent.perform (steady : model.Steady) (coherent : Coherent disk model lent Fresh registry)
    {operation : Operation} (loads : operation.changes = false) :
    Coherent disk model lent Fresh (operation.perform disk registry) := by
  cases operation with
  | load scopeName => exact (coherent.load steady scopeName).2
  | loadWith scopeName config => exact (coherent.loadWith steady scopeName config).2
  | addGrammar | addGrammarFor | addGrammarFile | addInjection | configure | setTheme
  | setThemeFile => cases loads

/-- The model of a registry after some operations is the one that only the changes were made
to. Once something has been dropped, nothing stale is left. -/
theorem Coherent.performAll (steady : model.Steady)
    (coherent : Coherent disk model lent Fresh registry) (operations : List Operation) :
    (Operation.performAll disk model (operations.filter Operation.changes)).Steady ∧
      Coherent disk (Operation.performAll disk model (operations.filter Operation.changes)) lent
        (fun scopeName => Fresh scopeName ∨ ∃ operation ∈ operations, operation.drops disk = true)
        (Operation.performAll disk registry operations) := by
  induction operations generalizing model registry Fresh with
  | nil => exact ⟨steady, coherent.mono fun _ fresh => fresh.resolve_right (by simp)⟩
  | cons operation operations ih =>
    cases kind : operation.changes with
    | true =>
      obtain ⟨steady, coherent⟩ := coherent.change steady kind
      rw [List.filter_cons_of_pos kind]
      obtain ⟨steady, coherent⟩ := ih steady coherent
      refine ⟨steady, coherent.mono fun scopeName fresh => ?_⟩
      rw [List.exists_mem_cons_iff] at fresh
      exact or_assoc.mpr fresh
    | false =>
      rw [List.filter_cons_of_neg (by simp [kind])]
      obtain ⟨steady, coherent⟩ := ih steady (coherent.perform steady kind)
      refine ⟨steady, coherent.mono fun scopeName fresh => ?_⟩
      have keeps : operation.drops disk = false := by
        cases operation <;> first | rfl | cases kind
      rw [List.exists_mem_cons_iff] at fresh
      exact fresh.imp_right fun dropped => dropped.resolve_left (by simp [keeps])

/-- What two registries with one model show is the same. -/
theorem Coherent.shown_eq {other : Registry} {otherLent : Table String} {OtherFresh : String → Prop}
    (steady : model.Steady) (coherent : Coherent disk model lent Fresh registry)
    (coherentOther : Coherent disk model otherLent OtherFresh other) {scopeName : String}
    (fresh : Fresh scopeName) (otherFresh : OtherFresh scopeName) :
    shown (registry.load disk scopeName) = shown (other.load disk scopeName) ∧
      ∀ config,
        shown (registry.loadWith disk scopeName config) = shown (other.loadWith disk scopeName config) :=
  ⟨((coherent.load steady scopeName).1 fresh).trans
    ((coherentOther.load steady scopeName).1 otherFresh).symm,
  fun config => ((coherent.loadWith steady scopeName config).1 fresh).trans
    ((coherentOther.loadWith steady scopeName config).1 otherFresh).symm⟩

/-- A new registry, which has its engine and nothing else. -/
theorem steady_new (engine : Engine) : ({ engine := engine } : Registry).Steady :=
  ⟨by rintro _ ⟨⟩, fun _ _ => rfl⟩

theorem coherent_new (engine : Engine) (disk : Disk) :
    Coherent disk { engine := engine } {} (fun _ => True) { engine := engine } :=
  .of_nothing_kept (steady_new engine).mirrors rfl rfl rfl rfl rfl

end Registry

/-- After any operations on a new registry a load gives what it gives after the changes among
them alone: the same error, nothing, or a grammar with the same rules, patterns, configuration,
theme and engine. -/
theorem kept_grammars_never_show (engine : Engine) (disk : Disk) (operations : List Operation) :
    let registry := Operation.performAll disk { engine := engine } operations
    let fresh := Operation.performAll disk { engine := engine } (operations.filter Operation.changes)
    (∀ scopeName, Registry.shown (registry.load disk scopeName) =
        Registry.shown (fresh.load disk scopeName)) ∧
      ∀ scopeName config, Registry.shown (registry.loadWith disk scopeName config) =
        Registry.shown (fresh.loadWith disk scopeName config) := by
  intro registry fresh
  have start := Registry.coherent_new engine disk
  obtain ⟨steady, coherent⟩ := start.performAll (Registry.steady_new engine) operations
  obtain ⟨_, alone⟩ :=
    start.performAll (Registry.steady_new engine) (operations.filter Operation.changes)
  rw [List.filter_filter, show (fun operation => Operation.changes operation &&
    Operation.changes operation) = Operation.changes from funext fun _ => Bool.and_self _] at alone
  exact ⟨fun scopeName => (coherent.shown_eq steady alone (.inl trivial) (.inl trivial)).1,
    fun scopeName => (coherent.shown_eq steady alone (.inl trivial) (.inl trivial)).2⟩

end ScopeLexer

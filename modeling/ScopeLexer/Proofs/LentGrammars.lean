import ScopeLexer.Proofs.DocumentSize
import ScopeLexer.Proofs.JournalIndependence
import ScopeLexer.Proofs.LibraryAgreement
import ScopeLexer.Proofs.LoadingCompleteness

/-! Grammars that wait in files. A registry mirrors another one, its model, if it has the
same grammars, but may still have to read some of them. What a grammar is compiled to is
then the same for both: reading a grammar where it is looked up changes nothing but where
it is found the next time, and a registry allows for enough rounds also for what it has
not read. -/
namespace ScopeLexer

open Grammar Regex

namespace Registry

/-- What a grammar is compiled to when nothing is kept. -/
def compiled (registry : Registry) (disk : Disk) (scopeName : String) :
    Except Error (Option Compilation) :=
  match ((loadDependencies (library disk) (registry.roundBound disk) scopeName).run.run registry).1 with
  | .error error => .error error
  | .ok none => .ok none
  | .ok (some grammars) =>
    match (compile scopeName grammars ((registry.injections.get? scopeName).getD [])
      registry.engine {}).1 with
    | .error error => .error (.compile error)
    | .ok compilation => .ok (some compilation)

/-- A registry has the grammars of its model, or files to read them from. What is read is
injected into nothing. -/
structure Mirrors (disk : Disk) (model registry : Registry) : Prop where
  engine : registry.engine = model.engine
  injections : registry.injections = model.injections
  held : ∀ scopeName grammar, registry.sources.get? scopeName = some grammar →
    model.sources.get? scopeName = some grammar
  absent : ∀ scopeName, registry.sources.get? scopeName = none →
    registry.files.get? scopeName = none → model.sources.get? scopeName = none
  lent : ∀ scopeName path, registry.sources.get? scopeName = none →
    registry.files.get? scopeName = some path → ∃ grammar,
      disk.readDocument GrammarSource.ofText path = .ok grammar ∧ grammar.injectTo = [] ∧
      model.sources.get? scopeName = some grammar

variable {disk : Disk} {model registry after : Registry}

/-- A registry with nothing to read mirrors itself. -/
theorem Steady.mirrors (steady : model.Steady) : Mirrors disk model model where
  engine := rfl
  injections := rfl
  held _ _ held := held
  absent _ missing _ := missing
  lent scopeName path missing waits := by
    rw [steady.read scopeName missing] at waits
    cases waits

/-- What a registry keeps does not matter. -/
theorem Mirrors.congr (mirrors : Mirrors disk model registry) (engine : after.engine = registry.engine)
    (injections : after.injections = registry.injections)
    (sources : after.sources = registry.sources) (files : after.files = registry.files) :
    Mirrors disk model after where
  engine := engine.trans mirrors.engine
  injections := injections.trans mirrors.injections
  held := sources ▸ mirrors.held
  absent := sources ▸ files ▸ mirrors.absent
  lent := sources ▸ files ▸ mirrors.lent

theorem run_lookup_held (held : registry.sources.get? scopeName = some grammar) :
    (lookup disk scopeName).run.run registry = (.ok (some grammar), registry) := by
  rw [lookup, run_bind, run_get]
  simp only [held]
  rfl

theorem run_lookup_absent (missing : registry.sources.get? scopeName = none)
    (nowhere : registry.files.get? scopeName = none) :
    (lookup disk scopeName).run.run registry = (.ok none, registry) := by
  rw [lookup, run_bind, run_get]
  simp only [missing, nowhere]
  rfl

/-- A grammar that waits in a file is kept once it has been looked up. -/
theorem run_lookup_lent {grammar : GrammarSource}
    (missing : registry.sources.get? grammar.scopeName = none)
    (waits : registry.files.get? grammar.scopeName = some path)
    (reads : disk.readDocument GrammarSource.ofText path = .ok grammar)
    (alone : grammar.injectTo = []) :
    (lookup disk grammar.scopeName).run.run registry = (.ok (some grammar),
      { registry with sources := registry.sources.insert grammar.scopeName grammar }) := by
  have stored : registry.store grammar =
      { registry with sources := registry.sources.insert grammar.scopeName grammar } := by
    rw [store, alone]
    rfl
  rw [lookup, run_bind, run_get]
  simp only [missing, waits, reads, ← stored]
  change StateT.run (ExceptT.run (if grammar.scopeName = grammar.scopeName then _ else _)) registry = _
  rw [if_pos rfl]
  rfl

/-- Reading a grammar keeps a registry a mirror. -/
theorem Mirrors.insert (mirrors : Mirrors disk model registry)
    (found : model.sources.get? scopeName = some grammar) :
    Mirrors disk model { registry with sources := registry.sources.insert scopeName grammar } where
  engine := mirrors.engine
  injections := mirrors.injections
  held other held under := by
    rw [Table.get?_insert] at under
    split at under
    next same =>
      cases under
      exact same ▸ found
    next => exact mirrors.held other held under
  absent other missing nowhere := by
    rw [Table.get?_insert] at missing
    split at missing
    · cases missing
    · exact mirrors.absent other missing nowhere
  lent other path missing waits := by
    rw [Table.get?_insert] at missing
    split at missing
    · cases missing
    · exact mirrors.lent other path missing waits

/-- A model, and a mirror of it in which only the grammars have changed since some time. -/
def Followed (disk : Disk) (model start left right : Registry) : Prop :=
  model = left ∧ Mirrors disk model right ∧ ∃ sources, right = { start with sources := sources }

/-- A mirror finds what its model has. -/
theorem agreement (steady : model.Steady) (start : Registry) :
    Agreement (Followed disk model start) (fun _ => True) (library disk) (library disk) where
  lookup scopeName _ := by
    rintro _ registry ⟨rfl, mirrors, sources, same⟩
    refine ⟨.ok (model.sources.get? scopeName), model, ?_⟩
    have found := run_lookup steady disk scopeName
    cases held : registry.sources.get? scopeName with
    | some grammar =>
      refine ⟨registry, found, ?_, ⟨rfl, mirrors, sources, same⟩, fun _ _ _ _ _ _ _ _ _ _ => trivial⟩
      rw [mirrors.held scopeName grammar held]
      exact run_lookup_held held
    | none =>
      cases waits : registry.files.get? scopeName with
      | none =>
        refine ⟨registry, found, ?_, ⟨rfl, mirrors, sources, same⟩, fun _ _ _ _ _ _ _ _ _ _ => trivial⟩
        rw [mirrors.absent scopeName held waits]
        exact run_lookup_absent held waits
      | some path =>
        obtain ⟨grammar, reads, alone, there⟩ := mirrors.lent scopeName path held waits
        obtain rfl := steady.scopeName there
        refine ⟨_, found, ?_, ⟨rfl, mirrors.insert there, registry.sources.insert grammar.scopeName grammar,
          ?_⟩, fun _ _ _ _ _ _ _ _ _ _ => trivial⟩
        · rw [there]
          exact run_lookup_lent held waits reads alone
        · rw [same]
  injectors source other scopeName related _ := by
    obtain ⟨rfl, mirrors, _⟩ := related
    refine ⟨?_, fun _ _ => trivial⟩
    change (other.injections.get? scopeName).getD [] = _
    rw [mirrors.injections]
    rfl

/-- The grammars in the files of a registry. -/
def lentGrammars (registry : Registry) (disk : Disk) : List GrammarSource :=
  registry.files.values.filterMap fun path =>
    (disk.readDocument GrammarSource.ofText path).toOption

/-- All that can be asked for while a grammar is loaded, also by grammars that have not been
read. -/
def nameable (registry : Registry) (disk : Disk) (scopeName : String) : List Dependency :=
  registry.askable scopeName ++ (registry.lentGrammars disk).flatMap fun grammar =>
    grammar.rules.toList.filterMap fun rule =>
      rule.reference.bind fun text => (Reference.ofText text).dependency?

/-- A grammar read from a file has no more rules than the file has characters. -/
theorem size_le_of_readDocument {grammar : GrammarSource}
    (reads : disk.readDocument GrammarSource.ofText path = .ok grammar) :
    grammar.rules.size ≤ ((disk.read path).toOption.map String.length).getD 0 := by
  unfold Disk.readDocument at reads
  split at reads
  · cases reads
  · cases reads
  next text read =>
    split at reads
    next document decoded =>
      cases reads
      rw [read]
      exact GrammarSource.size_ofText decoded
    next => cases reads

/-- There are enough rounds to ask for everything that the grammars can name. -/
theorem length_nameable_lt (registry : Registry) (disk : Disk) (scopeName : String) :
    (registry.nameable disk scopeName).length < registry.roundBound disk := by
  have sizes (paths : List String) :
      (paths.filterMap fun path => (disk.readDocument GrammarSource.ofText path).toOption).foldr
          (fun source count => source.rules.size + count) 0 ≤
        paths.foldr (fun path count =>
          ((disk.read path).toOption.map String.length).getD 0 + count) 0 := by
    induction paths with
    | nil => exact Nat.le_refl 0
    | cons path paths ih =>
      rw [List.filterMap_cons, List.foldr_cons]
      cases reads : disk.readDocument GrammarSource.ofText path with
      | error error => exact Nat.le_trans ih (Nat.le_add_left _ _)
      | ok grammar => exact Nat.add_le_add (size_le_of_readDocument reads) ih
  have named := length_named_le (registry.lentGrammars disk)
  have bound := registry.length_askable_add_lt disk scopeName
  have fewer := sizes registry.files.values
  rw [nameable, List.length_append]
  unfold lentGrammars at named ⊢
  omega

theorem Steady.under_own_name (steady : model.Steady) {scopeName : String} {base : GrammarSource}
    (found : model.sources.get? scopeName = some base) :
    model.sources.get? base.scopeName = some base :=
  steady.scopeName found ▸ found

/-- A model as a catalogue, with what its mirror can ask for. -/
def mirrorCatalogue (steady : model.Steady) (mirrors : Mirrors disk model registry)
    {base : GrammarSource} (found : model.sources.get? scopeName = some base) : Catalogue where
  grammars := model.sources
  injectors other := (model.injections.get? other).getD []
  base := base
  askable := registry.nameable disk scopeName
  keyed _ _ held := steady.scopeName held
  baseHeld := steady.under_own_name found
  start := List.mem_append_left _ (steady.scopeName found ▸ List.mem_cons_self)
  injected _ _ member := by
    rw [← mirrors.injections] at member
    exact List.mem_append_left _ (whole_mem_askable member)
  named other grammar held rule member text dependency refers names := by
    cases there : registry.sources.get? other with
    | some same =>
      cases (mirrors.held other same there).symm.trans held
      exact List.mem_append_left _ (named_mem_askable there member refers names)
    | none =>
      cases waits : registry.files.get? other with
      | none =>
        rw [mirrors.absent other there waits] at held
        cases held
      | some path =>
        obtain ⟨same, reads, _, under⟩ := mirrors.lent other path there waits
        cases under.symm.trans held
        apply List.mem_append_right
        refine List.mem_flatMap.mpr ⟨grammar, List.mem_filterMap.mpr ⟨path, Table.mem_values waits, ?_⟩,
          List.mem_filterMap.mpr ⟨rule, Array.mem_toList_iff.mpr member, ?_⟩⟩
        · rw [reads]
          rfl
        · rw [refers, Option.bind_some, names]

theorem run_loadDependencies_absent (steady : model.Steady) (missing : model.sources.get? scopeName = none)
    (disk : Disk) (rounds : Nat) :
    (loadDependencies (library disk) rounds scopeName).run.run model = (.ok none, model) := by
  rw [loadDependencies, run_bind]
  simp only [library, run_lookup steady, missing]
  rfl

/-- The rounds that a registry allows for are enough. -/
theorem Steady.rounds (steady : model.Steady) (disk : Disk) (scopeName : String) {rounds : Nat}
    (enough : model.roundBound disk ≤ rounds) :
    (loadDependencies (library disk) rounds scopeName).run.run model =
      (loadDependencies (library disk) (model.roundBound disk) scopeName).run.run model := by
  cases found : model.sources.get? scopeName with
  | none => rw [run_loadDependencies_absent steady found, run_loadDependencies_absent steady found]
  | some base =>
    obtain rfl := steady.scopeName found
    exact Catalogue.loadDependencies_stable (serves steady disk found)
      (model.length_askable_lt disk base.scopeName) enough

/-- The model loads the same in the rounds that its mirror allows for. -/
theorem Mirrors.rounds (steady : model.Steady) (mirrors : Mirrors disk model registry)
    (scopeName : String) :
    (loadDependencies (library disk) (registry.roundBound disk) scopeName).run.run model =
      (loadDependencies (library disk) (model.roundBound disk) scopeName).run.run model := by
  cases found : model.sources.get? scopeName with
  | none => rw [run_loadDependencies_absent steady found, run_loadDependencies_absent steady found]
  | some base =>
    have own := steady.rounds disk scopeName
      (Nat.le_max_left (model.roundBound disk) (registry.roundBound disk))
    obtain rfl := steady.scopeName found
    have serves : (mirrorCatalogue steady mirrors found).Serves (library disk) model :=
      ⟨run_lookup steady disk, fun _ => rfl⟩
    have other := Catalogue.loadDependencies_stable serves
      (registry.length_nameable_lt disk base.scopeName)
      (Nat.le_max_right (model.roundBound disk) (registry.roundBound disk))
    exact other.symm.trans own

/-- Loading gives the same from a registry and from its model, and leaves it a mirror. -/
theorem Mirrors.loads (steady : model.Steady) (mirrors : Mirrors disk model registry)
    (scopeName : String) : ∃ result sources,
      (loadDependencies (library disk) (model.roundBound disk) scopeName).run.run model =
        (result, model) ∧
      (loadDependencies (library disk) (registry.roundBound disk) scopeName).run.run registry =
        (result, { registry with sources := sources }) ∧
      Mirrors disk model { registry with sources := sources } := by
  have inStep : InStep (Followed disk model registry)
      (loadDependencies (library disk) (registry.roundBound disk) scopeName)
      (loadDependencies (library disk) (registry.roundBound disk) scopeName) fun _ => True :=
    (agreement steady registry).inStep_loadDependencies _ trivial
  obtain ⟨result, _, _, run, otherRun, ⟨rfl, later, sources, rfl⟩, _⟩ :=
    inStep model registry ⟨rfl, mirrors, registry.sources, rfl⟩
  rw [mirrors.rounds steady] at run
  exact ⟨result, sources, run, otherRun, later⟩

/-- A grammar is compiled to the same for a registry and for its model. -/
theorem Mirrors.compiled_eq (steady : model.Steady) (mirrors : Mirrors disk model registry)
    (scopeName : String) : registry.compiled disk scopeName = model.compiled disk scopeName := by
  obtain ⟨result, sources, run, otherRun, _⟩ := mirrors.loads steady scopeName
  rw [compiled, compiled, run, otherRun, mirrors.injections, mirrors.engine]

end Registry
end ScopeLexer

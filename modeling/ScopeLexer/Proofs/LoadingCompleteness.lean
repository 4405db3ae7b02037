import ScopeLexer.Proofs.DependencyCompleteness
import ScopeLexer.Registry

/-! Loading from a registry is complete: a grammar compiled with what a registry loads for
it is what it is compiled to with all grammars of the registry at hand. This holds under
two conditions on the grammars, and fails without them: what the names in a rule stand for
must not depend on the way to the rule, and a rule that other grammars name must be on the
way through its grammar if that is named as a whole. -/
namespace ScopeLexer

open Grammar Regex

namespace Registry

/-- All that can be asked for while a grammar is loaded: the grammar, those injected into
some grammar, and what rules name. -/
def askable (registry : Registry) (scopeName : String) : List Dependency :=
  .whole scopeName :: (registry.injections.values.flatten.map .whole ++
    registry.sources.values.flatMap fun grammar =>
      grammar.rules.toList.filterMap fun rule =>
        rule.reference.bind fun text => (Reference.ofText text).dependency?)

/-- Every grammar stands under its scope name, and none is still to be read from a file;
so looking grammars up changes nothing. -/
structure Steady (registry : Registry) : Prop where
  keyed : ∀ entry ∈ registry.sources.entries, entry.2.scopeName = entry.1
  read : ∀ scopeName, registry.sources.get? scopeName = none → registry.files.get? scopeName = none

/-- Loading and compiling come to the same rules. -/
structure Tidy (registry : Registry) (scopeName : String) : Prop where
  unambiguous : ∀ grammar ∈ registry.sources.values, Unambiguous grammar
  parts : ∀ other name, .part other name ∈ registry.askable scopeName →
    .whole other ∈ registry.askable scopeName →
    ∀ grammar place, registry.sources.get? other = some grammar →
      grammar.repository.bind (·.get? name) = some place →
      ∃ around, Way grammar grammar.topPlaces place around

variable {registry : Registry}

/-- Rules name no more than there are rules. -/
theorem length_named_le (grammars : List GrammarSource) :
    (grammars.flatMap fun grammar => grammar.rules.toList.filterMap fun rule =>
      rule.reference.bind fun text => (Reference.ofText text).dependency?).length ≤
      grammars.foldr (fun source count => source.rules.size + count) 0 := by
  induction grammars with
  | nil => exact Nat.le_refl 0
  | cons grammar grammars ih =>
    rw [List.flatMap_cons, List.length_append, List.foldr_cons]
    exact Nat.add_le_add (List.length_filterMap_le _ _) ih

/-- The rounds that a registry allows for are enough for all that can be asked for, and for
the characters of its files. -/
theorem length_askable_add_lt (registry : Registry) (disk : Disk) (scopeName : String) :
    (registry.askable scopeName).length + registry.files.values.foldr (fun path count =>
      ((disk.read path).toOption.map String.length).getD 0 + count) 0 < registry.roundBound disk := by
  have injected (names : List (List String)) : names.flatten.length =
      names.foldr (fun names count => names.length + count) 0 := by
    induction names with
    | nil => rfl
    | cons first names ih => rw [List.flatten_cons, List.length_append, ih, List.foldr_cons]
  have bound := length_named_le registry.sources.values
  simp only [askable, roundBound, List.length_cons, List.length_append, List.length_map, injected]
  omega

theorem length_askable_lt (registry : Registry) (disk : Disk) (scopeName : String) :
    (registry.askable scopeName).length < registry.roundBound disk :=
  Nat.lt_of_le_of_lt (Nat.le_add_right _ _) (registry.length_askable_add_lt disk scopeName)

theorem whole_mem_askable (member : injector ∈ (registry.injections.get? other).getD []) :
    .whole injector ∈ registry.askable scopeName := by
  cases held : registry.injections.get? other with
  | none =>
    rw [held] at member
    cases member
  | some names =>
    rw [held] at member
    apply List.mem_cons_of_mem
    apply List.mem_append_left
    exact List.mem_map_of_mem (List.mem_flatten.mpr ⟨names, Table.mem_values held, member⟩)

theorem named_mem_askable (held : registry.sources.get? other = some grammar)
    (member : rule ∈ grammar.rules) (refers : rule.reference = some text)
    (names : (Reference.ofText text).dependency? = some dependency) :
    dependency ∈ registry.askable scopeName := by
  apply List.mem_cons_of_mem
  apply List.mem_append_right
  refine List.mem_flatMap.mpr ⟨grammar, Table.mem_values held, List.mem_filterMap.mpr
    ⟨rule, Array.mem_toList_iff.mpr member, ?_⟩⟩
  rw [refers, Option.bind_some, names]

theorem Steady.scopeName (steady : registry.Steady)
    (held : registry.sources.get? other = some grammar) : grammar.scopeName = other := by
  obtain ⟨before, after, entries, _⟩ := List.lookup_eq_some_iff.mp held
  exact steady.keyed (other, grammar) (by rw [entries]; simp)

theorem noteInjection_sources (registry : Registry) (target injector : String) :
    (registry.noteInjection target injector).sources = registry.sources ∧
      (registry.noteInjection target injector).files = registry.files := by
  unfold noteInjection
  simp only
  split <;> exact ⟨rfl, rfl⟩

theorem noteInjections_sources (registry : Registry) (targets : List String) (injector : String) :
    (targets.foldl (fun registry target => noteInjection registry target injector) registry).sources =
        registry.sources ∧
      (targets.foldl (fun registry target => noteInjection registry target injector) registry).files =
        registry.files := by
  induction targets generalizing registry with
  | nil => exact ⟨rfl, rfl⟩
  | cons target targets ih =>
    obtain ⟨sources, files⟩ := ih (registry.noteInjection target injector)
    obtain ⟨first, second⟩ := registry.noteInjection_sources target injector
    exact ⟨sources.trans first, files.trans second⟩

/-- Adding grammars keeps a registry steady. -/
theorem Steady.addGrammar (steady : registry.Steady) (source : GrammarSource) :
    (registry.addGrammar source).Steady := by
  obtain ⟨sources, files⟩ := registry.noteInjections_sources source.injectTo source.scopeName
  have held : (registry.addGrammar source).sources =
      registry.sources.insert source.scopeName source :=
    congrArg (fun sources => Table.insert sources source.scopeName source) sources
  have same : (registry.addGrammar source).files = registry.files := files
  constructor
  · intro entry member
    rw [held] at member
    rcases Table.mem_insertEntry member with rfl | old
    · rfl
    · exact steady.keyed entry old
  · intro scopeName missing
    rw [held, Table.get?_insert] at missing
    split at missing
    · cases missing
    · rw [same]
      exact steady.read scopeName missing

theorem steady_empty : ({} : Registry).Steady := ⟨by rintro _ ⟨⟩, fun _ _ => rfl⟩

/-- A registry as a catalogue for loading one of its grammars. -/
def catalogue (steady : registry.Steady) {base : GrammarSource}
    (found : registry.sources.get? scopeName = some base) : Catalogue where
  grammars := registry.sources
  injectors other := (registry.injections.get? other).getD []
  base := base
  askable := registry.askable scopeName
  keyed _ _ held := steady.scopeName held
  baseHeld := steady.scopeName found ▸ found
  start := steady.scopeName found ▸ List.mem_cons_self
  injected _ _ member := whole_mem_askable member
  named _ _ held _ member _ _ refers names := named_mem_askable held member refers names

theorem Tidy.catalogue (steady : registry.Steady) {base : GrammarSource}
    (found : registry.sources.get? scopeName = some base) (tidy : registry.Tidy scopeName) :
    (catalogue steady found).Tidy where
  unambiguous _ _ held := tidy.unambiguous _ (Table.mem_values held)
  parts := tidy.parts

theorem run_lookup (steady : registry.Steady) (disk : Disk) (scopeName : String) :
    (lookup disk scopeName).run.run registry = (.ok (registry.sources.get? scopeName), registry) := by
  rw [lookup, run_bind, run_get]
  cases held : registry.sources.get? scopeName with
  | some grammar =>
    simp only [held]
    rfl
  | none =>
    simp only [held, steady.read scopeName held]
    rfl

theorem serves (steady : registry.Steady) (disk : Disk) {base : GrammarSource}
    (found : registry.sources.get? scopeName = some base) :
    (catalogue steady found).Serves (library disk) registry where
  lookup := run_lookup steady disk
  injectors _ := rfl

end Registry

/-- Loading a grammar gives an answer and leaves the registry as it is. The answer is
nothing if there is no such grammar. Else it has all that a compilation with all grammars
looks up, of what there is, and the compilation with the answer is that with all
grammars. -/
theorem loaded_compiles_alike {registry : Registry} (steady : registry.Steady) {scopeName : String}
    (tidy : registry.Tidy scopeName) (disk : Disk) : ∃ answer,
      (loadDependencies (Registry.library disk) (registry.roundBound disk) scopeName).run.run
        registry = (.ok answer, registry) ∧
      (answer = none ↔ registry.sources.get? scopeName = none) ∧
      ∀ loaded base, answer = some loaded → registry.sources.get? scopeName = some base →
        (∀ name, Consults registry.sources base ((registry.injections.get? scopeName).getD []) name →
          loaded.get? name = registry.sources.get? name) ∧
        ∀ engine journal,
          compile scopeName loaded ((registry.injections.get? scopeName).getD []) engine journal =
            compile scopeName registry.sources ((registry.injections.get? scopeName).getD []) engine
              journal := by
  cases found : registry.sources.get? scopeName with
  | none =>
    refine ⟨none, ?_, by simp, by rintro _ _ ⟨⟩⟩
    rw [loadDependencies, run_bind]
    simp only [Registry.library, Registry.run_lookup steady, found]
    rfl
  | some base =>
    obtain rfl : base.scopeName = scopeName := steady.scopeName found
    obtain ⟨loaded, requests, run, settled⟩ := Catalogue.run_loadDependencies
      (registry.serves steady disk found) (registry.length_askable_lt disk base.scopeName)
    have tidy := tidy.catalogue steady found
    refine ⟨some loaded, run, by simp, ?_⟩
    rintro _ _ ⟨⟩ ⟨⟩
    exact ⟨fun name consults => Catalogue.Consults.found settled tidy consults,
      fun engine journal => settled.compile_eq tidy engine journal⟩

def Disk.bare : Disk := ⟨fun _ => .error .notFound⟩

namespace Mutual

/-- A grammar that refers to a grammar as a whole, to a rule of it, and to itself. -/
def outer : GrammarSource where
  scopeName := "source.a"
  patterns := [0, 1, 2]
  rules := #[{ reference := some "source.b" }, { reference := some "source.b#x" },
    { reference := some "$self" }]

/-- A grammar with a rule that its top level and other grammars name. -/
def shared : GrammarSource where
  scopeName := "source.b"
  patterns := [0]
  repository := some ⟨[("x", 2)]⟩
  rules := #[{ reference := some "#x" }, { reference := some "source.c#y" }, { patterns := some [1] }]

/-- A grammar of which only a rule is named, which leads back. -/
def nested : GrammarSource where
  scopeName := "source.c"
  repository := some ⟨[("y", 1)]⟩
  rules := #[{ reference := some "source.a" },
    { beginPattern := some "<", endPattern := some ">", patterns := some [0] }]

/-- A grammar that is injected into the first one. -/
def injected : GrammarSource where
  scopeName := "source.d"
  injectTo := ["source.a"]
  injectionSelector := some "L:source.a"
  patterns := [0]
  rules := #[{ matchPattern := some "!", name := some "mark" }]

/-- Grammars that lead to one another. -/
def registry : Registry :=
  ((({} : Registry).addGrammar outer).addGrammar shared).addGrammar nested |>.addGrammar injected

theorem steady : registry.Steady :=
  (((Registry.steady_empty.addGrammar outer).addGrammar shared).addGrammar nested).addGrammar injected

/-- The registry is tidy, so that the theorem applies to it. -/
theorem tidy : registry.Tidy "source.a" where
  unambiguous grammar member := by
    have flat : ∀ grammar ∈ registry.sources.values,
        grammar.rules.all (·.repository.isNone) = true := by decide +kernel
    exact unambiguous_of_rules (flat grammar member)
  parts other name part whole grammar place held found := by
    have only : ∀ dependency ∈ registry.askable "source.a",
        .whole dependency.scopeName ∈ registry.askable "source.a" →
        dependency = .whole dependency.scopeName ∨ dependency = .part "source.b" "x" := by
      decide +kernel
    rcases only _ part whole with same | same
    · cases same
    · cases same
      have under : registry.sources.get? "source.b" = some shared := rfl
      cases under.symm.trans held
      cases found
      have start : 0 ∈ shared.topPlaces := by decide
      have names : Reference.ofText "#x" = .inRepository "x" := by decide +kernel
      exact ⟨_, .named (.start start) rfl names rfl⟩

end Mutual

/-- Grammars that lead to one another, in circles, are loaded with one another. -/
theorem loaded_compiles_alike_mutual :
    Mutual.registry.Steady ∧ Mutual.registry.Tidy "source.a" ∧ ∃ answer,
      (loadDependencies (Registry.library .bare) (Mutual.registry.roundBound .bare)
        "source.a").run.run Mutual.registry = (.ok answer, Mutual.registry) ∧
      (answer = none ↔ Mutual.registry.sources.get? "source.a" = none) ∧
      ∀ loaded base, answer = some loaded →
        Mutual.registry.sources.get? "source.a" = some base →
        (∀ name, Consults Mutual.registry.sources base
            ((Mutual.registry.injections.get? "source.a").getD []) name →
          loaded.get? name = Mutual.registry.sources.get? name) ∧
        ∀ engine journal,
          compile "source.a" loaded ((Mutual.registry.injections.get? "source.a").getD []) engine
              journal =
            compile "source.a" Mutual.registry.sources
              ((Mutual.registry.injections.get? "source.a").getD []) engine journal :=
  ⟨Mutual.steady, Mutual.tidy, loaded_compiles_alike Mutual.steady Mutual.tidy .bare⟩

namespace Missed

/-- The grammar that is missed. -/
def leaf : GrammarSource where
  scopeName := "source.c"
  patterns := [0]
  rules := #[{ matchPattern := some "c", name := some "found" }]

/-- A rule of a grammar is named after the whole grammar, whose top level does not lead to
the rule. The rule is not asked for. -/
def partOfWhole : Registry :=
  ((({} : Registry).addGrammar {
      scopeName := "source.a"
      patterns := [0, 1]
      rules := #[{ reference := some "source.b" }, { reference := some "source.b#x" }] }).addGrammar {
      scopeName := "source.b"
      repository := some ⟨[("x", 1)]⟩
      rules := #[{ reference := some "source.c" }, { patterns := some [0] }] }).addGrammar leaf

/-- A rule has two repositories around it, on two ways to it. The walk comes first by the
way inside a rule that matches, which the compiler does not take. -/
def twoWays : Registry :=
  (({} : Registry).addGrammar {
    scopeName := "source.a"
    patterns := [3, 7]
    repository := some ⟨[("shared", 9)]⟩
    rules := #[{ reference := some "#shared" }, { matchPattern := some "z" },
      { patterns := some [0], repository := some ⟨[("x", 1)]⟩ },
      { matchPattern := some "m", patterns := some [2] },
      { reference := some "#shared" }, { reference := some "source.c" }, { patterns := some [5] },
      { patterns := some [4], repository := some ⟨[("x", 6)]⟩ },
      { reference := some "#x" }, { patterns := some [8] }] }).addGrammar leaf

/-- A rule that refers to another has a repository of its own. The walk looks the name up
inside it, the compiler around it. -/
def ownRepository : Registry :=
  (({} : Registry).addGrammar {
    scopeName := "source.a"
    patterns := [1]
    repository := some ⟨[("x", 3)]⟩
    rules := #[{ matchPattern := some "z" },
      { reference := some "#x", repository := some ⟨[("x", 0)]⟩ },
      { reference := some "source.c" }, { patterns := some [2] }] }).addGrammar leaf

/-- The number of rules that a grammar is compiled to. -/
def ruleCount (grammars : Loaded) : Option Nat :=
  (compile "source.a" grammars [] backtracking {}).1.toOption.map (·.grammar.rules.size)

/-- Whether loading misses the leaf, and with it a rule that the compiler would come by. -/
def misses (registry : Registry) : Bool :=
  match ((loadDependencies (Registry.library .bare) (registry.roundBound .bare) "source.a").run.run
    registry).1 with
  | .ok (some loaded) => !loaded.contains "source.c" && ruleCount loaded ≠ ruleCount registry.sources
  | _ => false

/-- Loading leaves the leaf out, though it is there, and the grammar is compiled to something
else than with all grammars. -/
def CompiledApart (registry : Registry) : Prop :=
  registry.sources.get? "source.c" = some leaf ∧ ∃ loaded,
    ((loadDependencies (Registry.library .bare) (registry.roundBound .bare) "source.a").run.run
      registry).1 = .ok (some loaded) ∧
    loaded.get? "source.c" = none ∧
    compile "source.a" loaded [] backtracking {} ≠
      compile "source.a" registry.sources [] backtracking {}

theorem compiledApart_of_misses {registry : Registry}
    (held : registry.sources.get? "source.c" = some leaf) (missed : misses registry = true) :
    CompiledApart registry := by
  unfold misses at missed
  split at missed
  next loaded run =>
    simp only [Bool.and_eq_true, Bool.not_eq_true', decide_eq_true_eq] at missed
    obtain ⟨absent, differ⟩ := missed
    refine ⟨held, loaded, run, Option.not_isSome_iff_eq_none.mp (Bool.eq_false_iff.mp absent), ?_⟩
    intro same
    exact differ (congrArg (·.1.toOption.map (·.grammar.rules.size)) same)
  next => cases missed

end Missed

/-- In steady registries that are not tidy, each for another reason, loading misses a grammar
that the compiler looks up. -/
theorem loaded_compiles_apart :
    (Missed.partOfWhole.Steady ∧ Missed.CompiledApart Missed.partOfWhole) ∧
    (Missed.twoWays.Steady ∧ Missed.CompiledApart Missed.twoWays) ∧
    (Missed.ownRepository.Steady ∧ Missed.CompiledApart Missed.ownRepository) := by
  refine ⟨⟨?_, Missed.compiledApart_of_misses rfl (by decide +kernel)⟩,
    ⟨?_, Missed.compiledApart_of_misses rfl (by decide +kernel)⟩,
    ⟨?_, Missed.compiledApart_of_misses rfl (by decide +kernel)⟩⟩
  · exact ((Registry.steady_empty.addGrammar _).addGrammar _).addGrammar _
  · exact (Registry.steady_empty.addGrammar _).addGrammar _
  · exact (Registry.steady_empty.addGrammar _).addGrammar _

end ScopeLexer

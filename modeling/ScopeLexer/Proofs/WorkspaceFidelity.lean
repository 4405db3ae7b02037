import ScopeLexer.Proofs.MemoSearch
import ScopeLexer.Proofs.StoreSoundness

/-! What is kept for a line never shows. A workspace is faithful if its store
serves the grammar and each set it keeps is the one that would be built anew,
but for memos, and those are honest. Finding keeps a workspace faithful; what
it finds was found by a pattern of a set built anew, and with steady patterns
it is what a finder gives that builds every set anew for every question. -/
namespace ScopeLexer.Line

open Grammar Pattern Regex

/-- A pattern just put into a set: nothing is remembered of it, and it was
compiled by the engine. -/
structure Entry.Fresh (engine : Engine) (entry : Entry) : Prop where
  memo : entry.memo = none
  made : ∀ searcher, entry.searcher = some searcher → engine.Makes searcher

section Built

variable {engine : Engine} {grammar : CompiledGrammar} {store : Store}

/-- The entries of rules are fresh: nothing is remembered, and their searchers are the engine's. -/
theorem entriesOf_fresh (serves : store.Serves engine grammar) (flavour : Flavour)
    (rules : List RuleId) :
    ∀ entry ∈ (entriesOf engine grammar flavour rules store).1, entry.Fresh engine := by
  induction rules generalizing store with
  | nil =>
    intro entry member
    cases member
  | cons rule rules ih =>
    intro entry member
    rcases List.mem_append.mp member with first | later
    · cases pattern : (grammar.rule rule).entryPattern with
      | none => simp [pattern] at first
      | some start =>
        simp only [pattern, Option.toList_some, List.mem_singleton] at first
        rw [first]
        exact ⟨rfl, fun searcher compiled => serves.own_made compiled⟩
    · exact ih ((entryOf_steady engine grammar flavour rule).serves serves) entry later

theorem endingEntry_fresh (serves : store.Serves engine grammar) (pattern : PatternId)
    (hasReferences : Bool) (key : SetKey) :
    (endingEntry engine pattern hasReferences key store).1.Fresh engine := by
  refine ⟨rfl, fun searcher compiled => ?_⟩
  unfold endingEntry at compiled
  simp only at compiled
  split at compiled
  · split at compiled
    · exact serves.resolvedText_made compiled
    · exact serves.own_made compiled
  · exact serves.own_made compiled

/-- The entries of the set for a key are fresh. -/
theorem buildRuleSet_fresh (serves : store.Serves engine grammar) (key : SetKey) :
    ∀ entry ∈ (buildRuleSet engine grammar key store).1.entries, entry.Fresh engine := by
  have entries := entriesOf_fresh serves key.flavour (grammar.candidates key.rule)
  have left := (entriesOf_steady engine grammar key.flavour
    (grammar.candidates key.rule)).serves serves
  intro entry member
  unfold buildRuleSet at member
  cases rule : grammar.rule key.rule with
  | region region =>
    have ending := endingEntry_fresh left region.stop region.stopHasReferences key
    simp only [rule] at member
    split at member
    · rcases List.mem_append.mp member with inside | last
      · exact entries entry inside
      · rw [List.mem_singleton.mp last]
        exact ending
    · rcases List.mem_cons.mp member with rfl | inside
      · exact ending
      · exact entries entry inside
  | single | group | block | capture | reserved =>
    simp only [rule] at member
    exact entries entry member

theorem buildConditionSet_fresh (serves : store.Serves engine grammar) (key : SetKey) :
    ∀ entry ∈ (buildConditionSet engine grammar key store).1.entries, entry.Fresh engine := by
  intro entry member
  unfold buildConditionSet at member
  cases rule : grammar.rule key.rule with
  | block block =>
    simp only [rule, List.mem_singleton] at member
    rw [member]
    exact endingEntry_fresh serves block.condition block.conditionHasReferences key
  | single | group | region | capture | reserved => simp [rule] at member

end Built

section Rebuilt

variable (engine : Engine) (grammar : CompiledGrammar)

/-- The set of a rule, nothing of the grammar having been compiled before. -/
def rebuiltRuleSet (key : SetKey) : PatternSet :=
  (buildRuleSet engine grammar key (.untouched grammar)).1

/-- The set of a condition, nothing of the grammar having been compiled before. -/
def rebuiltConditionSet (key : SetKey) : PatternSet :=
  (buildConditionSet engine grammar key (.untouched grammar)).1

/-- The first match of injections, every set being built anew. -/
def injectedAfresh (line : SourceLine) (pos : Nat) (flavour : Flavour) (scopes : List String)
    (best : Option (Bool × Match)) : List Injection → Option (Bool × Match)
  | [] => best
  | injection :: injections =>
    if injection.matcher.holds scopes then
      match ((rebuiltRuleSet engine grammar ⟨injection.rule, flavour, none⟩).findAfresh line
          pos).filter (better (best.map Prod.snd)) with
      | none => injectedAfresh line pos flavour scopes best injections
      | some found =>
        let best := some (decide (injection.priority = .left), found)
        if found.start = pos then best
        else injectedAfresh line pos flavour scopes best injections
    else injectedAfresh line pos flavour scopes best injections

/-- What matches next at or after a byte, every set being built anew. -/
def nextAfresh (line : SourceLine) (pos : Nat) (flavour : Flavour) (stack : Stack) : Option Match :=
  let own := (rebuiltRuleSet engine grammar ⟨stack.top.rule, flavour, stack.top.ending⟩).findAfresh
    line pos
  if grammar.injections.isEmpty then own
  else
    choose own (injectedAfresh engine grammar line pos flavour stack.contentScopes.names none
      grammar.injections)

/-- The finder that builds every set anew for every question, and remembers nothing. -/
def rebuildingFinder : Finder Unit where
  next line pos flavour stack _ := (nextAfresh engine grammar line pos flavour stack, ())
  condition line pos flavour frame _ :=
    ((rebuiltConditionSet engine grammar ⟨frame.rule, flavour, frame.ending⟩).findAfresh line pos, ())
  warn _ _ := ()

end Rebuilt

/-- A set that is the one built but for memos, which are honest and of lines
with numbers that have been given out. -/
structure PatternSet.Mirrors (known : List SourceLine) (count : Nat) (built set : PatternSet) :
    Prop where
  same : set.entries.map Entry.afresh = built.entries
  honest : ∀ entry ∈ set.entries, entry.Honest known
  numbered : ∀ entry ∈ set.entries, ∀ memo, entry.memo = some memo → memo.lineId < count

namespace PatternSet.Mirrors

variable {known part : List SourceLine} {count : Nat} {built set : PatternSet}

/-- A set that remembers nothing mirrors itself. -/
theorem of_fresh (fresh : ∀ entry ∈ built.entries, entry.memo = none) :
    Mirrors known count built built where
  same := by
    conv => rhs; rw [← List.map_id built.entries]
    apply List.map_congr_left
    intro entry member
    obtain ⟨target, searcher, hasG, memo⟩ := entry
    cases fresh _ member
    rfl
  honest entry member memo held := by
    rw [fresh entry member] at held
    cases held
  numbered entry member memo held := by
    rw [fresh entry member] at held
    cases held

theorem subset (mirrors : Mirrors known count built set) (fewer : ∀ line ∈ part, line ∈ known) :
    Mirrors part count built set :=
  ⟨mirrors.same, fun entry member => (mirrors.honest entry member).subset fewer, mirrors.numbered⟩

/-- No memo is of a line that gets its number only now. -/
theorem divide (mirrors : Mirrors known count built set) (numbered : line.id = count) :
    Mirrors (line :: known) (count + 1) built set where
  same := mirrors.same
  honest entry member memo held other among id := by
    have bound := mirrors.numbered entry member memo held
    rcases List.mem_cons.mp among with rfl | among
    · omega
    · exact mirrors.honest entry member memo held other among id
  numbered entry member memo held :=
    Nat.lt_succ_of_lt (mirrors.numbered entry member memo held)

theorem find (mirrors : Mirrors known count built set) (distinct : Distinct known)
    (member : line ∈ known) (numbered : line.id < count) (pos : Nat) :
    Mirrors known count built (set.find line pos).2 where
  same := (findFrom_afresh line pos none set.entries).trans mirrors.same
  honest := findFrom_honest mirrors.honest distinct member pos none
  numbered entry left memo held := by
    rcases mem_findFrom left with kept | ⟨before, among, rfl⟩
    · exact mirrors.numbered entry kept memo held
    · rcases Entry.search_memo held with old | new
      · exact mirrors.numbered before among memo old
      · exact new ▸ numbered

/-- What is found was found by a pattern of the set as built. -/
theorem finds (mirrors : Mirrors known count built set) (member : line ∈ known)
    (found : (set.find line pos).1 = some made) :
    ∃ entry ∈ built.entries, entry.Finds line pos made := by
  rcases findFrom_finds mirrors.honest member found with absurd | ⟨entry, among, finds⟩
  · cases absurd
  · refine ⟨entry.afresh, ?_, finds⟩
    rw [← mirrors.same]
    exact List.mem_map_of_mem among

/-- A set is steady if the one built is. -/
theorem steady_iff (mirrors : Mirrors known count built set) :
    (∀ entry ∈ set.entries, entry.Steady) ↔ ∀ entry ∈ built.entries, entry.Steady := by
  rw [← mirrors.same, List.forall_mem_map]
  rfl

theorem find_eq (mirrors : Mirrors known count built set)
    (steady : ∀ entry ∈ built.entries, entry.Steady) (member : line ∈ known) (pos : Nat) :
    (set.find line pos).1 = built.findAfresh line pos := by
  have steadySet : ∀ entry ∈ set.entries, entry.Steady := mirrors.steady_iff.mpr steady
  have kept : set.entries.map Entry.afresh = built.entries.map Entry.afresh := by
    rw [← mirrors.same, List.map_map]
    rfl
  calc (set.find line pos).1
      = set.findAfresh line pos := findFrom_eq mirrors.honest steadySet member pos none
    _ = built.findAfresh line pos := bestAfresh_congr kept line pos none

end PatternSet.Mirrors

/-- The store serves the grammar, and the sets kept are those that would be
built anew, for lines that are told apart by the numbers given out. -/
structure Workspace.Faithful (engine : Engine) (grammar : CompiledGrammar)
    (known : List SourceLine) (count : Nat) (workspace : Workspace) : Prop where
  serves : workspace.store.Serves engine grammar
  distinct : Distinct known
  numbered : ∀ line ∈ known, line.id < count
  rules : ∀ key set, workspace.ruleSets.get? key = some set →
    (rebuiltRuleSet engine grammar key).Mirrors known count set
  conditions : ∀ key set, workspace.conditionSets.get? key = some set →
    (rebuiltConditionSet engine grammar key).Mirrors known count set

/-- What is found for a stack was found by a pattern of the set of the rule at
the top, or of the set of an injection. -/
def Sighted (engine : Engine) (grammar : CompiledGrammar) (line : SourceLine) (pos : Nat)
    (flavour : Flavour) (stack : Stack) (made : Match) : Prop :=
  ∃ key : SetKey,
    (key = ⟨stack.top.rule, flavour, stack.top.ending⟩ ∨
      ∃ injection ∈ grammar.injections, key = ⟨injection.rule, flavour, none⟩) ∧
    ∃ entry ∈ (rebuiltRuleSet engine grammar key).entries, entry.Finds line pos made

/-- The sets that may be asked for what matches next: that of the rule at the top,
and those of the injections that hold for the scopes reached. -/
inductive Asks (grammar : CompiledGrammar) (flavour : Flavour) (stack : Stack) : SetKey → Prop where
  | own : Asks grammar flavour stack ⟨stack.top.rule, flavour, stack.top.ending⟩
  | injected (member : injection ∈ grammar.injections)
    (holds : injection.matcher.holds stack.contentScopes.names = true) :
    Asks grammar flavour stack ⟨injection.rule, flavour, none⟩

section

variable {engine : Engine} {grammar : CompiledGrammar} {known : List SourceLine} {count : Nat}
  {line : SourceLine} {workspace : Workspace}

/-- The workspace has the set of a rule. -/
def Workspace.Keeps (workspace : Workspace) (key : SetKey) : Prop :=
  (workspace.ruleSets.get? key).isSome = true

/-- The set that is asked is kept, and so is every set that was. -/
theorem findInRule_keeps (engine : Engine) (grammar : CompiledGrammar) (line : SourceLine) (pos : Nat)
    (key other : SetKey) (workspace : Workspace) :
    (findInRule engine grammar line pos key workspace).2.Keeps other ↔
      other = key ∨ workspace.Keeps other := by
  obtain ⟨set, kept⟩ : ∃ set, (findInRule engine grammar line pos key workspace).2.ruleSets =
      workspace.ruleSets.insert key set := ⟨_, rfl⟩
  rw [Workspace.Keeps, kept, Dictionary.get?_insert]
  by_cases same : other = key <;> simp [same, Workspace.Keeps]

theorem findCondition_keeps (engine : Engine) (grammar : CompiledGrammar) (line : SourceLine)
    (pos : Nat) (flavour : Flavour) (frame : Frame) (workspace : Workspace) :
    ((findCondition engine grammar line pos flavour frame workspace).2.conditionSets.get?
      ⟨frame.rule, flavour, frame.ending⟩).isSome = true := by
  unfold findCondition
  simp only [Dictionary.get?_insert, if_true, Option.isSome_some]

/-- With a store that serves the grammar, the set asked is the one kept or one
built anew, and is kept as the search leaves it. -/
theorem findInRule_eq (serves : workspace.store.Serves engine grammar) (line : SourceLine)
    (pos : Nat) (key : SetKey) :
    ∃ store : Store, store.Serves engine grammar ∧
      findInRule engine grammar line pos key workspace =
        let asked := ((workspace.ruleSets.get? key).getD (rebuiltRuleSet engine grammar key)).find
          line pos
        (asked.1, { workspace with
          store := store, ruleSets := workspace.ruleSets.insert key asked.2 }) := by
  have built := buildRuleSet_steady engine grammar key
  cases kept : workspace.ruleSets.get? key with
  | some set => exact ⟨workspace.store, serves, by simp only [findInRule, kept, Option.getD_some]⟩
  | none =>
    refine ⟨_, built.serves serves, ?_⟩
    simp only [findInRule, kept, built.eq_untouched serves, Option.getD_none]
    rfl

/-- The match of a condition is the search of its set, kept or made. -/
theorem findCondition_eq (serves : workspace.store.Serves engine grammar) (line : SourceLine)
    (pos : Nat) (flavour : Flavour) (frame : Frame) :
    ∃ store : Store, store.Serves engine grammar ∧
      findCondition engine grammar line pos flavour frame workspace =
        let key : SetKey := ⟨frame.rule, flavour, frame.ending⟩
        let asked := ((workspace.conditionSets.get? key).getD
          (rebuiltConditionSet engine grammar key)).find line pos
        (asked.1, { workspace with
          store := store, conditionSets := workspace.conditionSets.insert key asked.2 }) := by
  have built := buildConditionSet_steady engine grammar ⟨frame.rule, flavour, frame.ending⟩
  cases kept : workspace.conditionSets.get? ⟨frame.rule, flavour, frame.ending⟩ with
  | some set => exact ⟨workspace.store, serves, by simp only [findCondition, kept, Option.getD_some]⟩
  | none =>
    refine ⟨_, built.serves serves, ?_⟩
    simp only [findCondition, kept, built.eq_untouched serves, Option.getD_none]
    rfl

private theorem mirrors_getD {build : SetKey → PatternSet} {sets : Dictionary SetKey PatternSet}
    (fresh : ∀ key, ∀ entry ∈ (build key).entries, entry.Fresh engine)
    (kept : ∀ key set, sets.get? key = some set → (build key).Mirrors known count set)
    (key : SetKey) : (build key).Mirrors known count ((sets.get? key).getD (build key)) := by
  cases held : sets.get? key with
  | none => exact .of_fresh fun entry member => (fresh key entry member).memo
  | some set => exact kept key set held

private theorem mirrors_insert {build : SetKey → PatternSet} {sets : Dictionary SetKey PatternSet}
    {set : PatternSet}
    (kept : ∀ key set, sets.get? key = some set → (build key).Mirrors known count set)
    (mirrors : (build key).Mirrors known count set) :
    ∀ other held, (sets.insert key set).get? other = some held →
      (build other).Mirrors known count held := by
  intro other held found
  rw [Dictionary.get?_insert] at found
  split at found
  next same =>
    cases found
    rw [same]
    exact mirrors
  next => exact kept other held found

theorem rebuiltRuleSet_fresh (engine : Engine) (grammar : CompiledGrammar) (key : SetKey) :
    ∀ entry ∈ (rebuiltRuleSet engine grammar key).entries, entry.Fresh engine :=
  buildRuleSet_fresh (Store.serves_untouched engine grammar) key

theorem rebuiltConditionSet_fresh (engine : Engine) (grammar : CompiledGrammar) (key : SetKey) :
    ∀ entry ∈ (rebuiltConditionSet engine grammar key).entries, entry.Fresh engine :=
  buildConditionSet_fresh (Store.serves_untouched engine grammar) key

private theorem findInjected_cons (line : SourceLine) (pos : Nat) (flavour : Flavour)
    (scopes : List String) (best : Option (Bool × Match)) (injection : Injection)
    (injections : List Injection) (workspace : Workspace) :
    findInjected engine grammar line pos flavour scopes best (injection :: injections) workspace =
      if injection.matcher.holds scopes then
        let asked := findInRule engine grammar line pos ⟨injection.rule, flavour, none⟩ workspace
        match asked.1.filter (better (best.map Prod.snd)) with
        | none => findInjected engine grammar line pos flavour scopes best injections asked.2
        | some found =>
          if found.start = pos then
            (some (decide (injection.priority = .left), found), asked.2)
          else
            findInjected engine grammar line pos flavour scopes
              (some (decide (injection.priority = .left), found)) injections asked.2
      else findInjected engine grammar line pos flavour scopes best injections workspace := rfl

/-- Looking among injections throws no set away. -/
theorem findInjected_keeps (line : SourceLine) (pos : Nat) (flavour : Flavour)
    (scopes : List String) (best : Option (Bool × Match)) (injections : List Injection)
    (kept : workspace.Keeps key) :
    (findInjected engine grammar line pos flavour scopes best injections workspace).2.Keeps key := by
  induction injections generalizing best workspace with
  | nil => exact kept
  | cons injection injections ih =>
    have asked := (findInRule_keeps engine grammar line pos ⟨injection.rule, flavour, none⟩ key
      workspace).mpr (.inr kept)
    rw [findInjected_cons]
    split
    next =>
      simp only
      split
      next => exact ih best asked
      next =>
        split
        next => exact asked
        next => exact ih _ asked
    next => exact ih best kept

/-- Every pattern of the sets kept is steady, if its searches may be remembered. -/
structure Workspace.Steady (workspace : Workspace) : Prop where
  rules : ∀ key set, workspace.ruleSets.get? key = some set → ∀ entry ∈ set.entries, entry.Steady
  conditions : ∀ key set, workspace.conditionSets.get? key = some set →
    ∀ entry ∈ set.entries, entry.Steady

/-- A search of a set leaves its patterns what they are, so that sets that are steady after it were
steady before it. -/
private theorem steady_of_insert {sets : Dictionary SetKey PatternSet} {left : PatternSet}
    (line : SourceLine) (pos : Nat)
    (searched : ∀ set, sets.get? key = some set → (set.find line pos).2 = left)
    (steady : ∀ other held, (sets.insert key left).get? other = some held →
      ∀ entry ∈ held.entries, entry.Steady) :
    ∀ other held, sets.get? other = some held → ∀ entry ∈ held.entries, entry.Steady := by
  intro other held kept
  have later := steady other
  rw [Dictionary.get?_insert] at later
  split at later
  next same =>
    have steadyLeft := later left rfl
    rw [← searched held (same ▸ kept)] at steadyLeft
    exact (PatternSet.steady_congr (PatternSet.findFrom_afresh line pos none held.entries)).mp steadyLeft
  next => exact later held kept

namespace Workspace.Steady

theorem before_findInRule {key : SetKey}
    (steady : (findInRule engine grammar line pos key workspace).2.Steady) : workspace.Steady where
  rules := steady_of_insert line pos (fun set kept => by simp only [kept]; rfl) steady.rules
  conditions := steady.conditions

theorem before_findCondition
    (steady : (findCondition engine grammar line pos flavour frame workspace).2.Steady) :
    workspace.Steady where
  rules := steady.rules
  conditions := steady_of_insert line pos (fun set kept => by simp only [kept]; rfl) steady.conditions

/-- If the workspace is steady after looking among injections, it was before. -/
theorem before_findInjected {scopes : List String} {best : Option (Bool × Match)}
    {injections : List Injection}
    (steady : (findInjected engine grammar line pos flavour scopes best injections
      workspace).2.Steady) : workspace.Steady := by
  induction injections generalizing best workspace with
  | nil => exact steady
  | cons injection injections ih =>
    rw [findInjected_cons] at steady
    split at steady
    next =>
      simp only at steady
      split at steady
      next => exact (ih steady).before_findInRule
      next =>
        split at steady
        next => exact steady.before_findInRule
        next => exact (ih steady).before_findInRule
    next => exact ih steady

theorem before_findNext
    (steady : (findNext engine grammar line pos flavour stack workspace).2.Steady) :
    workspace.Steady := by
  unfold findNext at steady
  simp only at steady
  split at steady
  · exact steady.before_findInRule
  · exact steady.before_findInjected.before_findInRule

end Workspace.Steady

theorem choose_cases (chosen : choose own injected = some made) :
    own = some made ∨ injected.map Prod.snd = some made := by
  unfold choose at chosen
  split at chosen
  · exact .inl chosen
  · exact .inr chosen
  · split at chosen
    · exact .inr chosen
    · exact .inl chosen

namespace Workspace.Faithful

theorem start {store : Store} (serves : store.Serves engine grammar) (numbered : line.id < count) :
    Faithful engine grammar [line] count { store := store } where
  serves := serves
  distinct first member second also _ := by
    rw [List.mem_singleton.mp member, List.mem_singleton.mp also]
  numbered other member := by rwa [List.mem_singleton.mp member]
  rules key set held := by cases held
  conditions key set held := by cases held

theorem subset (faithful : Faithful engine grammar known count workspace)
    (fewer : ∀ line ∈ part, line ∈ known) : Faithful engine grammar part count workspace where
  serves := faithful.serves
  distinct first member second also :=
    faithful.distinct first (fewer first member) second (fewer second also)
  numbered other member := faithful.numbered other (fewer other member)
  rules key set held := (faithful.rules key set held).subset fewer
  conditions key set held := (faithful.conditions key set held).subset fewer

theorem forget (faithful : Faithful engine grammar (line :: known) count workspace) :
    Faithful engine grammar known count workspace :=
  faithful.subset fun _ => List.mem_cons_of_mem _

/-- A line with the next number is one that no set remembers. -/
theorem divide (faithful : Faithful engine grammar known count workspace)
    (numbered : line.id = count) :
    Faithful engine grammar (line :: known) (count + 1) workspace where
  serves := faithful.serves
  distinct := by
    intro first member second also same
    rcases List.mem_cons.mp member with rfl | old <;> rcases List.mem_cons.mp also with rfl | older
    · rfl
    · have bound := faithful.numbered second older
      omega
    · have bound := faithful.numbered first old
      omega
    · exact faithful.distinct first old second older same
  numbered other member := by
    rcases List.mem_cons.mp member with rfl | member
    · omega
    · exact Nat.lt_succ_of_lt (faithful.numbered other member)
  rules key set held := (faithful.rules key set held).divide numbered
  conditions key set held := (faithful.conditions key set held).divide numbered

theorem warn (faithful : Faithful engine grammar known count workspace) (warning : Warning) :
    Faithful engine grammar known count ((rememberingFinder engine grammar).warn warning workspace) :=
  ⟨faithful.serves.journal _, faithful.distinct, faithful.numbered, faithful.rules,
    faithful.conditions⟩

/-- The sets that would be built anew are steady where those that are kept are. -/
theorem steadyRules (faithful : Faithful engine grammar known count workspace)
    (steady : workspace.Steady) (kept : workspace.Keeps key) :
    ∀ entry ∈ (rebuiltRuleSet engine grammar key).entries, entry.Steady := by
  obtain ⟨set, held⟩ := Option.isSome_iff_exists.mp kept
  exact (faithful.rules key set held).steady_iff.mp (steady.rules key set held)

theorem steadyConditions (faithful : Faithful engine grammar known count workspace)
    (steady : workspace.Steady) (kept : (workspace.conditionSets.get? key).isSome = true) :
    ∀ entry ∈ (rebuiltConditionSet engine grammar key).entries, entry.Steady := by
  obtain ⟨set, held⟩ := Option.isSome_iff_exists.mp kept
  exact (faithful.conditions key set held).steady_iff.mp (steady.conditions key set held)

theorem findInRule (faithful : Faithful engine grammar known count workspace)
    (member : line ∈ known) (pos : Nat) (key : SetKey) :
    Faithful engine grammar known count
      (Line.findInRule engine grammar line pos key workspace).2 := by
  obtain ⟨store, serves, found⟩ := findInRule_eq faithful.serves line pos key
  have mirrors := mirrors_getD (rebuiltRuleSet_fresh engine grammar) faithful.rules key
  have asked := mirrors.find faithful.distinct member (faithful.numbered line member) pos
  rw [found]
  exact ⟨serves, faithful.distinct, faithful.numbered, mirrors_insert faithful.rules asked,
    faithful.conditions⟩

theorem findInRule_finds (faithful : Faithful engine grammar known count workspace)
    (member : line ∈ known)
    (answer : (Line.findInRule engine grammar line pos key workspace).1 = some made) :
    ∃ entry ∈ (rebuiltRuleSet engine grammar key).entries, entry.Finds line pos made := by
  obtain ⟨store, serves, found⟩ := findInRule_eq faithful.serves line pos key
  rw [found] at answer
  exact (mirrors_getD (rebuiltRuleSet_fresh engine grammar) faithful.rules key).finds member answer

theorem findInRule_afresh (faithful : Faithful engine grammar known count workspace)
    (member : line ∈ known) (pos : Nat) (key : SetKey)
    (steady : ∀ entry ∈ (rebuiltRuleSet engine grammar key).entries, entry.Steady) :
    (Line.findInRule engine grammar line pos key workspace).1 =
      (rebuiltRuleSet engine grammar key).findAfresh line pos := by
  obtain ⟨store, serves, found⟩ := findInRule_eq faithful.serves line pos key
  rw [found]
  exact (mirrors_getD (rebuiltRuleSet_fresh engine grammar) faithful.rules key).find_eq steady
    member pos

theorem findCondition (faithful : Faithful engine grammar known count workspace)
    (member : line ∈ known) (pos : Nat) (flavour : Flavour) (frame : Frame) :
    Faithful engine grammar known count
      (Line.findCondition engine grammar line pos flavour frame workspace).2 := by
  obtain ⟨store, serves, found⟩ := findCondition_eq faithful.serves line pos flavour frame
  have mirrors := mirrors_getD (rebuiltConditionSet_fresh engine grammar) faithful.conditions
    ⟨frame.rule, flavour, frame.ending⟩
  have asked := mirrors.find faithful.distinct member (faithful.numbered line member) pos
  rw [found]
  exact ⟨serves, faithful.distinct, faithful.numbered, faithful.rules,
    mirrors_insert faithful.conditions asked⟩

theorem findCondition_finds (faithful : Faithful engine grammar known count workspace)
    (member : line ∈ known)
    (answer : (Line.findCondition engine grammar line pos flavour frame workspace).1 = some made) :
    ∃ entry ∈ (rebuiltConditionSet engine grammar ⟨frame.rule, flavour, frame.ending⟩).entries,
      entry.Finds line pos made := by
  obtain ⟨store, serves, found⟩ := findCondition_eq faithful.serves line pos flavour frame
  rw [found] at answer
  exact (mirrors_getD (rebuiltConditionSet_fresh engine grammar) faithful.conditions _).finds member
    answer

theorem findCondition_afresh (faithful : Faithful engine grammar known count workspace)
    (member : line ∈ known) (pos : Nat) (flavour : Flavour) (frame : Frame)
    (steady : ∀ entry ∈ (rebuiltConditionSet engine grammar
      ⟨frame.rule, flavour, frame.ending⟩).entries, entry.Steady) :
    (Line.findCondition engine grammar line pos flavour frame workspace).1 =
      (rebuiltConditionSet engine grammar ⟨frame.rule, flavour, frame.ending⟩).findAfresh line pos := by
  obtain ⟨store, serves, found⟩ := findCondition_eq faithful.serves line pos flavour frame
  rw [found]
  exact (mirrors_getD (rebuiltConditionSet_fresh engine grammar) faithful.conditions _).find_eq
    steady member pos

/-- Asking injections one after the other keeps a workspace faithful, and what
is found was found by a pattern of one of them. -/
theorem findInjected (faithful : Faithful engine grammar known count workspace)
    (member : line ∈ known) (pos : Nat) (flavour : Flavour) (scopes : List String)
    (best : Option (Bool × Match)) (injections : List Injection) :
    Faithful engine grammar known count
        (Line.findInjected engine grammar line pos flavour scopes best injections workspace).2 ∧
      ∀ made, (Line.findInjected engine grammar line pos flavour scopes best injections
          workspace).1.map Prod.snd = some made →
        best.map Prod.snd = some made ∨ ∃ injection ∈ injections,
          ∃ entry ∈ (rebuiltRuleSet engine grammar ⟨injection.rule, flavour, none⟩).entries,
            entry.Finds line pos made := by
  induction injections generalizing best workspace with
  | nil => exact ⟨faithful, fun made found => .inl found⟩
  | cons injection injections ih =>
    have later (best : Option (Bool × Match)) {workspace : Workspace}
        (faithful : Faithful engine grammar known count workspace) :
        Faithful engine grammar known count (Line.findInjected engine grammar line pos flavour scopes
            best injections workspace).2 ∧
          ∀ made, (Line.findInjected engine grammar line pos flavour scopes best injections
              workspace).1.map Prod.snd = some made →
            best.map Prod.snd = some made ∨ ∃ other ∈ injection :: injections,
              ∃ entry ∈ (rebuiltRuleSet engine grammar ⟨other.rule, flavour, none⟩).entries,
                entry.Finds line pos made := by
      obtain ⟨kept, finds⟩ := ih faithful best
      refine ⟨kept, fun made found => ?_⟩
      rcases finds made found with same | ⟨other, among, seen⟩
      · exact .inl same
      · exact .inr ⟨other, List.mem_cons_of_mem _ among, seen⟩
    have asked := faithful.findInRule member pos ⟨injection.rule, flavour, none⟩
    rw [findInjected_cons]
    split
    next =>
      simp only
      split
      next => exact later best asked
      next found filtered =>
        have own := faithful.findInRule_finds member (Option.filter_eq_some_iff.mp filtered).1
        split
        next =>
          refine ⟨asked, fun made same => ?_⟩
          cases same
          exact .inr ⟨injection, List.mem_cons_self, own⟩
        next =>
          obtain ⟨kept, finds⟩ := later (some (decide (injection.priority = .left), found)) asked
          refine ⟨kept, fun made same => ?_⟩
          rcases finds made same with here | elsewhere
          · cases here
            exact .inr ⟨injection, List.mem_cons_self, own⟩
          · exact .inr elsewhere
    next => exact later best faithful

/-- Injections are found as by sets built anew, if the patterns of the sets that are
asked are steady. -/
theorem findInjected_afresh (faithful : Faithful engine grammar known count workspace)
    (member : line ∈ known) (pos : Nat) (flavour : Flavour) (scopes : List String)
    (best : Option (Bool × Match)) (injections : List Injection)
    (steady : ∀ injection ∈ injections, injection.matcher.holds scopes = true →
      (Line.findInjected engine grammar line pos flavour scopes best injections workspace).2.Keeps
        ⟨injection.rule, flavour, none⟩ →
      ∀ entry ∈ (rebuiltRuleSet engine grammar ⟨injection.rule, flavour, none⟩).entries,
        entry.Steady) :
    (Line.findInjected engine grammar line pos flavour scopes best injections workspace).1 =
      injectedAfresh engine grammar line pos flavour scopes best injections := by
  induction injections generalizing best workspace with
  | nil => rfl
  | cons injection injections ih =>
    have asked := faithful.findInRule member pos ⟨injection.rule, flavour, none⟩
    obtain ⟨first, rest⟩ := List.forall_mem_cons.mp steady
    rw [findInjected_cons] at first rest
    rw [findInjected_cons, injectedAfresh]
    split
    next holds =>
      rw [if_pos holds] at first rest
      have kept : (Line.findInRule engine grammar line pos ⟨injection.rule, flavour, none⟩
          workspace).2.Keeps ⟨injection.rule, flavour, none⟩ :=
        (findInRule_keeps ..).mpr (.inl rfl)
      have answer := faithful.findInRule_afresh member pos ⟨injection.rule, flavour, none⟩
        (first holds (by
          simp only
          split
          · exact findInjected_keeps line pos flavour scopes best injections kept
          · split
            · exact kept
            · exact findInjected_keeps line pos flavour scopes _ injections kept))
      simp only [answer] at rest ⊢
      split
      next none =>
        simp only [none] at rest
        exact ih asked best rest
      next found filtered =>
        simp only [filtered] at rest
        split
        next => rfl
        next later =>
          rw [if_neg later] at rest
          exact ih asked _ rest
    next skipped =>
      rw [if_neg skipped] at rest
      exact ih faithful best rest

theorem findNext (faithful : Faithful engine grammar known count workspace) (member : line ∈ known)
    (pos : Nat) (flavour : Flavour) (stack : Stack) :
    Faithful engine grammar known count
      (Line.findNext engine grammar line pos flavour stack workspace).2 := by
  have asked := faithful.findInRule member pos ⟨stack.top.rule, flavour, stack.top.ending⟩
  unfold Line.findNext
  simp only
  split
  · exact asked
  · exact (asked.findInjected member pos flavour _ none grammar.injections).1

/-- What is found is sighted: some set finds it when it is searched afresh from where it was
searched. -/
theorem findNext_sighted (faithful : Faithful engine grammar known count workspace)
    (member : line ∈ known)
    (answer : (Line.findNext engine grammar line pos flavour stack workspace).1 = some made) :
    Sighted engine grammar line pos flavour stack made := by
  have own (seen : (Line.findInRule engine grammar line pos ⟨stack.top.rule, flavour,
      stack.top.ending⟩ workspace).1 = some made) :
      Sighted engine grammar line pos flavour stack made :=
    ⟨_, .inl rfl, faithful.findInRule_finds member seen⟩
  have asked := faithful.findInRule member pos ⟨stack.top.rule, flavour, stack.top.ending⟩
  have injected (seen : (Line.findInjected engine grammar line pos flavour stack.contentScopes.names
      none grammar.injections (Line.findInRule engine grammar line pos ⟨stack.top.rule, flavour,
        stack.top.ending⟩ workspace).2).1.map Prod.snd = some made) :
      Sighted engine grammar line pos flavour stack made := by
    rcases (asked.findInjected member pos flavour _ none grammar.injections).2 made seen with
      absurd | ⟨injection, among, finds⟩
    · cases absurd
    · exact ⟨_, .inr ⟨injection, among, rfl⟩, finds⟩
  unfold Line.findNext at answer
  simp only at answer
  split at answer
  · exact own answer
  · rcases choose_cases answer with seen | seen
    · exact own seen
    · exact injected seen

/-- With steady entries in the sets asked for, memos change nothing that is found. -/
theorem findNext_afresh (faithful : Faithful engine grammar known count workspace)
    (member : line ∈ known) (pos : Nat) (flavour : Flavour) (stack : Stack)
    (steady : ∀ key, Asks grammar flavour stack key →
      (Line.findNext engine grammar line pos flavour stack workspace).2.Keeps key →
      ∀ entry ∈ (rebuiltRuleSet engine grammar key).entries, entry.Steady) :
    (Line.findNext engine grammar line pos flavour stack workspace).1 =
      nextAfresh engine grammar line pos flavour stack := by
  have asked := faithful.findInRule member pos ⟨stack.top.rule, flavour, stack.top.ending⟩
  have kept : (Line.findInRule engine grammar line pos ⟨stack.top.rule, flavour, stack.top.ending⟩
      workspace).2.Keeps ⟨stack.top.rule, flavour, stack.top.ending⟩ :=
    (findInRule_keeps ..).mpr (.inl rfl)
  have own := faithful.findInRule_afresh member pos
    ⟨stack.top.rule, flavour, stack.top.ending⟩
  unfold Line.findNext at steady
  unfold Line.findNext nextAfresh
  simp only at steady ⊢
  split
  next none =>
    rw [if_pos none] at steady
    exact own (steady _ .own kept)
  next some =>
    rw [if_neg some] at steady
    rw [own (steady _ .own (findInjected_keeps line pos flavour _ none grammar.injections kept)),
      asked.findInjected_afresh member pos flavour stack.contentScopes.names none grammar.injections
        fun injection among holds => steady _ (.injected among holds)]

end Workspace.Faithful

/-- Workspaces that keep the same sets, with stores that serve the grammar. -/
structure Workspace.Twins (engine : Engine) (grammar : CompiledGrammar) (left right : Workspace) :
    Prop where
  servesLeft : left.store.Serves engine grammar
  servesRight : right.store.Serves engine grammar
  rules : left.ruleSets = right.ruleSets
  conditions : left.conditionSets = right.conditionSets

namespace Workspace.Twins

variable {left right : Workspace}

theorem warn (twins : Twins engine grammar left right) (warning : Warning) :
    Twins engine grammar ((rememberingFinder engine grammar).warn warning left)
      ((rememberingFinder engine grammar).warn warning right) :=
  ⟨twins.servesLeft.journal _, twins.servesRight.journal _, twins.rules, twins.conditions⟩

theorem findInRule (twins : Twins engine grammar left right) (line : SourceLine) (pos : Nat)
    (key : SetKey) :
    (Line.findInRule engine grammar line pos key left).1 =
        (Line.findInRule engine grammar line pos key right).1 ∧
      Twins engine grammar (Line.findInRule engine grammar line pos key left).2
        (Line.findInRule engine grammar line pos key right).2 := by
  obtain ⟨_, servesLeft, foundLeft⟩ := findInRule_eq twins.servesLeft line pos key
  obtain ⟨_, servesRight, foundRight⟩ := findInRule_eq twins.servesRight line pos key
  rw [foundLeft, foundRight, twins.rules]
  exact ⟨rfl, servesLeft, servesRight, rfl, twins.conditions⟩

theorem findCondition (twins : Twins engine grammar left right) (line : SourceLine) (pos : Nat)
    (flavour : Flavour) (frame : Frame) :
    (Line.findCondition engine grammar line pos flavour frame left).1 =
        (Line.findCondition engine grammar line pos flavour frame right).1 ∧
      Twins engine grammar (Line.findCondition engine grammar line pos flavour frame left).2
        (Line.findCondition engine grammar line pos flavour frame right).2 := by
  obtain ⟨_, servesLeft, foundLeft⟩ := findCondition_eq twins.servesLeft line pos flavour frame
  obtain ⟨_, servesRight, foundRight⟩ := findCondition_eq twins.servesRight line pos flavour frame
  rw [foundLeft, foundRight, twins.conditions]
  exact ⟨rfl, servesLeft, servesRight, twins.rules, rfl⟩

/-- Twins find the same among injections, and stay twins. -/
theorem findInjected (twins : Twins engine grammar left right) (line : SourceLine) (pos : Nat)
    (flavour : Flavour) (scopes : List String) (best : Option (Bool × Match))
    (injections : List Injection) :
    (Line.findInjected engine grammar line pos flavour scopes best injections left).1 =
        (Line.findInjected engine grammar line pos flavour scopes best injections right).1 ∧
      Twins engine grammar
        (Line.findInjected engine grammar line pos flavour scopes best injections left).2
        (Line.findInjected engine grammar line pos flavour scopes best injections right).2 := by
  induction injections generalizing best left right with
  | nil => exact ⟨rfl, twins⟩
  | cons injection injections ih =>
    obtain ⟨same, asked⟩ := twins.findInRule line pos ⟨injection.rule, flavour, none⟩
    rw [findInjected_cons, findInjected_cons]
    split
    next =>
      simp only [same]
      split
      next => exact ih asked best
      next found _ =>
        split
        next => exact ⟨rfl, asked⟩
        next => exact ih asked _
    next => exact ih twins best

theorem findNext (twins : Twins engine grammar left right) (line : SourceLine) (pos : Nat)
    (flavour : Flavour) (stack : Stack) :
    (Line.findNext engine grammar line pos flavour stack left).1 =
        (Line.findNext engine grammar line pos flavour stack right).1 ∧
      Twins engine grammar (Line.findNext engine grammar line pos flavour stack left).2
        (Line.findNext engine grammar line pos flavour stack right).2 := by
  obtain ⟨same, asked⟩ := twins.findInRule line pos ⟨stack.top.rule, flavour, stack.top.ending⟩
  obtain ⟨sameInjected, injected⟩ := asked.findInjected line pos flavour stack.contentScopes.names
    none grammar.injections
  unfold Line.findNext
  simp only
  split
  · exact ⟨same, asked⟩
  · exact ⟨by rw [same, sameInjected], injected⟩

end Workspace.Twins

end

end ScopeLexer.Line

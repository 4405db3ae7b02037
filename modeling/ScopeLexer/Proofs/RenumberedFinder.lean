import ScopeLexer.Proofs.CompilerLockstep
import ScopeLexer.Line.Finder

/-! Grammars that differ in the numbers of their rules, and perhaps in how rules that only
hold others hold them: the rules tried inside a rule are the same. What is found on a line
with the one is found with the other, by rules of other numbers, and what is remembered
corresponds as well. -/
namespace ScopeLexer

open Grammar Pattern Regex

namespace Dictionary

variable {κ ι α β : Type} [DecidableEq κ] [DecidableEq ι]

/-- The dictionary with other keys and values. -/
def rekey (change : κ → ι) (convert : α → β) (dictionary : Dictionary κ α) : Dictionary ι β :=
  ⟨dictionary.entries.map (Prod.map change convert)⟩

variable {change : κ → ι} (injective : ∀ key other, change key = change other → key = other)
  (convert : α → β)
include injective

/-- Renamed keys lead to the converted values. -/
theorem get?_rekey (dictionary : Dictionary κ α) (key : κ) :
    (dictionary.rekey change convert).get? (change key) = (dictionary.get? key).map convert := by
  obtain ⟨entries⟩ := dictionary
  unfold rekey get?
  induction entries with
  | nil => rfl
  | cons entry rest ih =>
    obtain ⟨other, value⟩ := entry
    rw [List.map_cons, Prod.map_apply, lookup_entry, lookup_entry, ih]
    by_cases same : key = other
    · rw [if_pos same, if_pos (congrArg change same), Option.map_some]
    · rw [if_neg same, if_neg fun equal => same (injective _ _ equal)]

theorem map_replaceEntry (key : κ) (value : α) (entries : List (κ × α)) :
    (replaceEntry key value entries).map (Prod.map change convert) =
      replaceEntry (change key) (convert value) (entries.map (Prod.map change convert)) := by
  induction entries with
  | nil => rfl
  | cons entry rest ih =>
    obtain ⟨other, held⟩ := entry
    rw [List.map_cons, Prod.map_apply, replaceEntry, replaceEntry]
    by_cases same : key = other
    · rw [if_pos same, if_pos (congrArg change same), List.map_cons, Prod.map_apply]
    · rw [if_neg same, if_neg fun equal => same (injective _ _ equal), List.map_cons,
        Prod.map_apply, ih]

theorem rekey_insert (dictionary : Dictionary κ α) (key : κ) (value : α) :
    (dictionary.insert key value).rekey change convert =
      (dictionary.rekey change convert).insert (change key) (convert value) := by
  unfold insert
  rw [get?_rekey injective, Option.isSome_map]
  split
  · exact congrArg Dictionary.mk (map_replaceEntry injective convert key value dictionary.entries)
  · rfl

end Dictionary

/-- Two grammars that differ in numbers only, as far as scans go. A rule that only holds
others may hold them otherwise. -/
structure Renumbering (left right : CompiledGrammar) where
  rename : RuleId → RuleId
  injective : ∀ id other, rename id = rename other → id = other
  scopeName : right.scopeName = left.scopeName
  patterns : right.patterns = left.patterns
  size : left.rules.size ≤ right.rules.size
  root : right.root = rename left.root
  injections : right.injections = left.injections.map (Injection.mapId rename)
  rule : ∀ id, right.rule (rename id) = (left.rule id).mapIds rename ∨
    ∃ held other, left.rule id = .group held ∧ right.rule (rename id) = .group other
  candidates : ∀ id, right.candidates (rename id) = (left.candidates id).map rename

namespace Line

/-- What a match leads to, under other numbers. -/
def Target.renamed (rename : RuleId → RuleId) : Target → Target
  | .enter rule => .enter (rename rule)
  | .leave => .leave

/-- A match that leads to a rule leads to one that is entered by a pattern. -/
def Target.Fits (grammar : CompiledGrammar) : Target → Prop
  | .enter rule => (grammar.rule rule).entryPattern.isSome
  | .leave => True

/-- The match of a rule of another number. -/
def Match.renamed (rename : RuleId → RuleId) (found : Match) : Match :=
  { found with target := found.target.renamed rename }

/-- The pattern of a rule of another number. -/
def Entry.renamed (rename : RuleId → RuleId) (entry : Entry) : Entry :=
  { entry with target := entry.target.renamed rename }

/-- The patterns of rules of other numbers. -/
def PatternSet.renamed (rename : RuleId → RuleId) (set : PatternSet) : PatternSet :=
  ⟨set.entries.map (Entry.renamed rename)⟩

/-- The same for a rule of another number. -/
def SetKey.renamed (rename : RuleId → RuleId) (key : SetKey) : SetKey :=
  { key with rule := rename key.rule }

/-- The patterns at hand, under other numbers. -/
def Workspace.renamed (rename : RuleId → RuleId) (workspace : Workspace) : Workspace where
  store := workspace.store
  ruleSets := workspace.ruleSets.rekey (SetKey.renamed rename) (PatternSet.renamed rename)
  conditionSets := workspace.conditionSets.rekey (SetKey.renamed rename) (PatternSet.renamed rename)

/-- All patterns of a set lead to rules that are entered by a pattern. -/
def PatternSet.Fits (grammar : CompiledGrammar) (set : PatternSet) : Prop :=
  ∀ entry ∈ set.entries, entry.target.Fits grammar

/-- All sets built for rules lead to rules that are entered by a pattern. -/
def Workspace.Fits (grammar : CompiledGrammar) (workspace : Workspace) : Prop :=
  ∀ key set, workspace.ruleSets.get? key = some set → set.Fits grammar

section Searches

variable (rename : RuleId → RuleId)

/-- The search of an entry does not ask what its rule is called. -/
theorem search_renamed (entry : Entry) (line : SourceLine) (pos : Nat) :
    (entry.renamed rename).search line pos =
      ((entry.search line pos).1, (entry.search line pos).2.renamed rename) := by
  obtain ⟨target, searcher, hasG, memo⟩ := entry
  cases searcher with
  | none => rfl
  | some searcher =>
    cases hasG with
    | true => rfl
    | false =>
      have remembered : (Entry.renamed rename ⟨target, some searcher, false, memo⟩).remembered? line
          pos = Entry.remembered? ⟨target, some searcher, false, memo⟩ line pos := rfl
      unfold Entry.search
      rw [remembered]
      cases Entry.remembered? ⟨target, some searcher, false, memo⟩ line pos <;> rfl

theorem target_search (entry : Entry) (line : SourceLine) (pos : Nat) :
    (entry.search line pos).2.target = entry.target := by
  unfold Entry.search
  split
  · rfl
  · split
    · rfl
    · split <;> rfl

theorem better_renamed (best : Option Match) (found : Match) :
    better (best.map (Match.renamed rename)) (found.renamed rename) = better best found := by
  cases best <;> rfl

theorem filter_better_renamed (best found : Option Match) :
    (found.map (Match.renamed rename)).filter (better (best.map (Match.renamed rename))) =
      (found.filter (better best)).map (Match.renamed rename) := by
  cases found with
  | none => rfl
  | some found =>
    rw [Option.map_some, Option.filter_some, Option.filter_some, better_renamed]
    split <;> rfl

/-- The search of a set does not ask what its rules are called. -/
theorem findFrom_renamed (line : SourceLine) (pos : Nat) (best : Option Match)
    (entries : List Entry) :
    PatternSet.findFrom line pos (best.map (Match.renamed rename))
        (entries.map (Entry.renamed rename)) =
      ((PatternSet.findFrom line pos best entries).1.map (Match.renamed rename),
        (PatternSet.findFrom line pos best entries).2.map (Entry.renamed rename)) := by
  induction entries generalizing best with
  | nil => rfl
  | cons entry entries ih =>
    have spanned (spans : Option Spans) : spans.bind (entry.renamed rename).toMatch =
        (spans.bind entry.toMatch).map (Match.renamed rename) := by
      cases spans with
      | none => rfl
      | some spans =>
        simp only [Option.bind_some, Entry.toMatch, Option.map_map]
        rfl
    rw [List.map_cons, PatternSet.findFrom, PatternSet.findFrom, search_renamed]
    simp only [spanned, filter_better_renamed]
    cases ((entry.search line pos).1.bind entry.toMatch).filter (better best) with
    | none =>
      simp only [Option.map_none, ih]
      rfl
    | some found =>
      have start : (found.renamed rename).start = found.start := rfl
      simp only [Option.map_some, start]
      split
      · rfl
      · have rest := ih (some found)
        rw [Option.map_some] at rest
        simp only [rest]
        rfl

theorem find_renamed (set : PatternSet) (line : SourceLine) (pos : Nat) :
    (set.renamed rename).find line pos =
      ((set.find line pos).1.map (Match.renamed rename), (set.find line pos).2.renamed rename) := by
  have found := findFrom_renamed rename line pos none set.entries
  rw [Option.map_none] at found
  simp only [PatternSet.find, PatternSet.renamed, found]

end Searches

section Fitting

variable {grammar : CompiledGrammar}

/-- What a search finds leads where one of the entries leads, to a rule of the grammar. -/
theorem findFrom_fits (line : SourceLine) (pos : Nat) {best : Option Match} {entries : List Entry}
    (bestFits : ∀ found, best = some found → found.target.Fits grammar)
    (fits : ∀ entry ∈ entries, entry.target.Fits grammar) :
    (∀ found, (PatternSet.findFrom line pos best entries).1 = some found →
      found.target.Fits grammar) ∧
    ∀ entry ∈ (PatternSet.findFrom line pos best entries).2, entry.target.Fits grammar := by
  induction entries generalizing best with
  | nil => exact ⟨bestFits, fits⟩
  | cons entry entries ih =>
    have here := fits entry List.mem_cons_self
    have later (entry : Entry) (member : entry ∈ entries) := fits entry (List.mem_cons_of_mem _ member)
    have searched : (entry.search line pos).2.target.Fits grammar := by rwa [target_search]
    have spanned (found : Match) (made : ((entry.search line pos).1.bind entry.toMatch).filter
        (better best) = some found) : found.target.Fits grammar := by
      obtain ⟨spans, _, made⟩ := Option.bind_eq_some_iff.mp (Option.filter_eq_some_iff.mp made).1
      obtain ⟨span, _, rfl⟩ := Option.map_eq_some_iff.mp made
      exact here
    rw [PatternSet.findFrom]
    simp only
    split
    next =>
      obtain ⟨found, rest⟩ := ih bestFits later
      exact ⟨found, fun other member => (List.mem_cons.mp member).elim (· ▸ searched) (rest other)⟩
    next found made =>
      have fitsFound := spanned found made
      split
      · refine ⟨by rintro _ ⟨⟩; exact fitsFound, fun other member => ?_⟩
        exact (List.mem_cons.mp member).elim (· ▸ searched) (later other)
      · have nextFits (other : Match) (same : some found = some other) :
            other.target.Fits grammar := by
          cases same
          exact fitsFound
        obtain ⟨best, rest⟩ := ih nextFits later
        exact ⟨best, fun other member => (List.mem_cons.mp member).elim (· ▸ searched) (rest other)⟩

theorem find_fits {set : PatternSet} (fits : set.Fits grammar) (line : SourceLine) (pos : Nat) :
    (∀ found, (set.find line pos).1 = some found → found.target.Fits grammar) ∧
      (set.find line pos).2.Fits grammar :=
  findFrom_fits line pos (by rintro _ ⟨⟩) fits

/-- The entries of rules lead to rules of the grammar. -/
theorem entriesOf_fits (engine : Engine) (grammar : CompiledGrammar) (flavour : Flavour)
    (rules : List RuleId) (store : Store) :
    ∀ entry ∈ (entriesOf engine grammar flavour rules store).1, entry.target.Fits grammar := by
  induction rules generalizing store with
  | nil => exact fun entry member => nomatch member
  | cons rule rules ih =>
    intro entry member
    rw [entriesOf] at member
    rcases List.mem_append.mp member with here | later
    · unfold entryOf at here
      split at here
      · cases here
      next pattern held =>
        rw [List.mem_singleton.mp here]
        exact Option.isSome_iff_exists.mpr ⟨pattern, held⟩
    · exact ih _ entry later

/-- The set made for a key leads to rules of the grammar. -/
theorem buildRuleSet_fits (engine : Engine) (grammar : CompiledGrammar) (key : SetKey)
    (store : Store) : (buildRuleSet engine grammar key store).1.Fits grammar := by
  have entries := entriesOf_fits engine grammar key.flavour (grammar.candidates key.rule) store
  intro entry member
  unfold buildRuleSet at member
  simp only at member
  split at member
  next rule =>
    simp only at member
    split at member
    · rcases List.mem_append.mp member with inside | ending
      · exact entries entry inside
      · rw [List.mem_singleton.mp ending]
        trivial
    · rcases List.mem_cons.mp member with rfl | inside
      · trivial
      · exact entries entry inside
  next => exact entries entry member

/-- What is found in a rule leads to a rule of the grammar, and so do the sets kept. -/
theorem findInRule_fits {workspace : Workspace} (fits : workspace.Fits grammar) (engine : Engine)
    (line : SourceLine) (pos : Nat) (key : SetKey) :
    (∀ found, (findInRule engine grammar line pos key workspace).1 = some found →
      found.target.Fits grammar) ∧
    (findInRule engine grammar line pos key workspace).2.Fits grammar := by
  have looked (set : PatternSet) (store : Store) (setFits : set.Fits grammar) :
      (∀ found, (set.find line pos).1 = some found → found.target.Fits grammar) ∧
      Workspace.Fits grammar { workspace with
        store := store, ruleSets := workspace.ruleSets.insert key (set.find line pos).2 } := by
    obtain ⟨found, kept⟩ := find_fits setFits line pos
    refine ⟨found, fun other held among => ?_⟩
    simp only [Dictionary.get?_insert] at among
    split at among
    · cases among
      exact kept
    · exact fits other held among
  unfold findInRule
  cases held : workspace.ruleSets.get? key with
  | some set => exact looked set workspace.store (fits key set held)
  | none => exact looked _ _ (buildRuleSet_fits engine grammar key workspace.store)

/-- What is found among injections leads to a rule of the grammar, and so do the sets kept. -/
theorem findInjected_fits {workspace : Workspace} (fits : workspace.Fits grammar) (engine : Engine)
    (line : SourceLine) (pos : Nat) (flavour : Flavour) (scopes : List String)
    {best : Option (Bool × Match)} (bestFits : ∀ found, best = some found → found.2.target.Fits grammar)
    (injections : List Injection) :
    (∀ found, (findInjected engine grammar line pos flavour scopes best injections workspace).1 =
      some found → found.2.target.Fits grammar) ∧
    (findInjected engine grammar line pos flavour scopes best injections workspace).2.Fits
      grammar := by
  induction injections generalizing best workspace with
  | nil => exact ⟨bestFits, fits⟩
  | cons injection injections ih =>
    rw [findInjected]
    split
    · obtain ⟨found, kept⟩ := findInRule_fits fits engine line pos ⟨injection.rule, flavour, none⟩
      simp only
      split
      · exact ih kept bestFits
      next match_ filtered =>
        have here := found match_ (Option.filter_eq_some_iff.mp filtered).1
        split
        · exact ⟨by rintro _ ⟨⟩; exact here, kept⟩
        · refine ih kept fun other same => ?_
          cases same
          exact here
    · exact ih fits bestFits

/-- What matches next leads to a rule that is entered by a pattern, or out of one. -/
theorem findNext_fits {workspace : Workspace} (fits : workspace.Fits grammar) (engine : Engine)
    (line : SourceLine) (pos : Nat) (flavour : Flavour) (stack : Stack) :
    (∀ found, (findNext engine grammar line pos flavour stack workspace).1 = some found →
      found.target.Fits grammar) ∧
    (findNext engine grammar line pos flavour stack workspace).2.Fits grammar := by
  obtain ⟨own, kept⟩ := findInRule_fits fits engine line pos
    ⟨stack.top.rule, flavour, stack.top.ending⟩
  have nothing (found : Bool × Match) (absurd : none = some found) : found.2.target.Fits grammar :=
    nomatch absurd
  obtain ⟨injected, last⟩ := findInjected_fits kept engine line pos flavour
    stack.contentScopes.names nothing grammar.injections
  unfold findNext
  simp only
  split
  · exact ⟨own, kept⟩
  · refine ⟨fun found chosen => ?_, last⟩
    unfold choose at chosen
    split at chosen
    · exact own found chosen
    next another =>
      cases chosen
      exact injected _ another
    next another =>
      split at chosen
      · cases chosen
        exact injected _ another
      next mine _ _ =>
        cases chosen
        exact own found (by assumption)

theorem findCondition_fits {workspace : Workspace} (fits : workspace.Fits grammar)
    (engine : Engine) (line : SourceLine) (pos : Nat) (flavour : Flavour) (frame : Frame) :
    (findCondition engine grammar line pos flavour frame workspace).2.Fits grammar := by
  unfold findCondition
  cases workspace.conditionSets.get? ⟨frame.rule, flavour, frame.ending⟩ <;> exact fits

end Fitting

end Line

namespace Renumbering

open Line

variable {left right : CompiledGrammar} (numbering : Renumbering left right) (engine : Engine)

theorem entryPattern (id : RuleId) :
    (right.rule (numbering.rename id)).entryPattern = (left.rule id).entryPattern := by
  rcases numbering.rule id with same | ⟨held, other, here, there⟩
  · rw [same]
    cases left.rule id <;> rfl
  · rw [here, there]
    rfl

theorem key_injective (key other : SetKey)
    (same : key.renamed numbering.rename = other.renamed numbering.rename) : key = other := by
  obtain ⟨rule, flavour, ending⟩ := key
  obtain ⟨otherRule, _, _⟩ := other
  simp only [SetKey.renamed, SetKey.mk.injEq] at same
  obtain ⟨rules, rfl, rfl⟩ := same
  rw [numbering.injective rule otherRule rules]

/-- Renamed rules have the renamed entries, out of the same store. -/
theorem entriesOf_renamed (flavour : Flavour) (rules : List RuleId) (store : Store) :
    entriesOf engine right flavour (rules.map numbering.rename) store =
      ((entriesOf engine left flavour rules store).1.map (Entry.renamed numbering.rename),
        (entriesOf engine left flavour rules store).2) := by
  induction rules generalizing store with
  | nil => rfl
  | cons rule rules ih =>
    have entry : entryOf engine right flavour (numbering.rename rule) store =
        ((entryOf engine left flavour rule store).1.map (Entry.renamed numbering.rename),
          (entryOf engine left flavour rule store).2) := by
      unfold entryOf
      rw [numbering.entryPattern]
      cases (left.rule rule).entryPattern <;> rfl
    rw [List.map_cons, entriesOf, entriesOf, entry]
    simp only [ih, List.map_append, Option.toList_map]

/-- The set made for a renamed key is the renamed set. -/
theorem buildRuleSet_renamed (key : SetKey) (store : Store) :
    buildRuleSet engine right (key.renamed numbering.rename) store =
      ((buildRuleSet engine left key store).1.renamed numbering.rename,
        (buildRuleSet engine left key store).2) := by
  have rule : (key.renamed numbering.rename).rule = numbering.rename key.rule := rfl
  have flavour : (key.renamed numbering.rename).flavour = key.flavour := rfl
  unfold buildRuleSet
  rw [rule, flavour, numbering.candidates, numbering.entriesOf_renamed]
  rcases numbering.rule key.rule with same | ⟨held, other, here, there⟩
  · rw [same]
    cases left.rule key.rule with
    | region region =>
      simp only [Rule.mapIds]
      split
      · simp only [PatternSet.renamed, List.map_append]
        rfl
      · rfl
    | single | group | block | capture | reserved => rfl
  · rw [here, there]
    rfl

theorem buildConditionSet_renamed (key : SetKey) (store : Store) :
    buildConditionSet engine right (key.renamed numbering.rename) store =
      ((buildConditionSet engine left key store).1.renamed numbering.rename,
        (buildConditionSet engine left key store).2) := by
  have rule : (key.renamed numbering.rename).rule = numbering.rename key.rule := rfl
  unfold buildConditionSet
  rw [rule]
  rcases numbering.rule key.rule with same | ⟨held, other, here, there⟩
  · rw [same]
    cases left.rule key.rule <;> rfl
  · rw [here, there]
    rfl

/-- The renamed rule finds the renamed match, and leaves the renamed workspace. -/
theorem findInRule_renamed (line : SourceLine) (pos : Nat) (key : SetKey) (workspace : Workspace) :
    findInRule engine right line pos (key.renamed numbering.rename)
        (workspace.renamed numbering.rename) =
      ((findInRule engine left line pos key workspace).1.map (Match.renamed numbering.rename),
        (findInRule engine left line pos key workspace).2.renamed numbering.rename) := by
  have held := Dictionary.get?_rekey numbering.key_injective
    (PatternSet.renamed numbering.rename) workspace.ruleSets key
  unfold findInRule
  simp only [Workspace.renamed, held]
  cases workspace.ruleSets.get? key with
  | some set =>
    simp only [Option.map_some, find_renamed, Dictionary.rekey_insert numbering.key_injective]
  | none =>
    simp only [Option.map_none, buildRuleSet_renamed, find_renamed,
      Dictionary.rekey_insert numbering.key_injective]

/-- The condition of a renamed frame matches as that of the frame does. -/
theorem findCondition_renamed (line : SourceLine) (pos : Nat) (flavour : Flavour)
    (frame other : Frame) (rule : other.rule = numbering.rename frame.rule)
    (ending : other.ending = frame.ending) (workspace : Workspace) :
    findCondition engine right line pos flavour other (workspace.renamed numbering.rename) =
      ((findCondition engine left line pos flavour frame workspace).1.map
          (Match.renamed numbering.rename),
        (findCondition engine left line pos flavour frame workspace).2.renamed
          numbering.rename) := by
  have held := Dictionary.get?_rekey numbering.key_injective
    (PatternSet.renamed numbering.rename) workspace.conditionSets ⟨frame.rule, flavour, frame.ending⟩
  have key : (⟨other.rule, flavour, other.ending⟩ : SetKey) =
      SetKey.renamed numbering.rename ⟨frame.rule, flavour, frame.ending⟩ := by
    rw [rule, ending]
    rfl
  unfold findCondition
  simp only [key, Workspace.renamed, held]
  cases workspace.conditionSets.get? ⟨frame.rule, flavour, frame.ending⟩ with
  | some set =>
    simp only [Option.map_some, find_renamed, Dictionary.rekey_insert numbering.key_injective]
  | none =>
    simp only [Option.map_none, buildConditionSet_renamed, find_renamed,
      Dictionary.rekey_insert numbering.key_injective]

/-- The renamed injections find the renamed match, and leave the renamed workspace. -/
theorem findInjected_renamed (line : SourceLine) (pos : Nat) (flavour : Flavour)
    (scopes : List String) (best : Option (Bool × Match)) (injections : List Injection)
    (workspace : Workspace) :
    findInjected engine right line pos flavour scopes
        (best.map (Prod.map id (Match.renamed numbering.rename)))
        (injections.map (Injection.mapId numbering.rename)) (workspace.renamed numbering.rename) =
      ((findInjected engine left line pos flavour scopes best injections workspace).1.map
          (Prod.map id (Match.renamed numbering.rename)),
        (findInjected engine left line pos flavour scopes best injections workspace).2.renamed
          numbering.rename) := by
  induction injections generalizing best workspace with
  | nil => rfl
  | cons injection injections ih =>
    have key : (⟨(injection.mapId numbering.rename).rule, flavour, none⟩ : SetKey) =
      SetKey.renamed numbering.rename ⟨injection.rule, flavour, none⟩ := rfl
    have matcher : (injection.mapId numbering.rename).matcher = injection.matcher := rfl
    have priority : (injection.mapId numbering.rename).priority = injection.priority := rfl
    have second : (best.map (Prod.map id (Match.renamed numbering.rename))).map Prod.snd =
        (best.map Prod.snd).map (Match.renamed numbering.rename) := by
      cases best <;> rfl
    rw [List.map_cons, findInjected, findInjected, matcher]
    split
    · rw [key, findInRule_renamed]
      simp only [second, filter_better_renamed]
      cases Option.filter (better (best.map Prod.snd))
        (findInRule engine left line pos ⟨injection.rule, flavour, none⟩ workspace).1 with
      | none => exact ih best _
      | some found =>
        have start : (found.renamed numbering.rename).start = found.start := rfl
        simp only [Option.map_some, start, priority]
        split
        · rfl
        · exact ih (some (decide (injection.priority = .left), found)) _
    · exact ih best workspace

theorem choose_renamed (rename : RuleId → RuleId) (own : Option Match)
    (injected : Option (Bool × Match)) :
    choose (own.map (Match.renamed rename)) (injected.map (Prod.map id (Match.renamed rename))) =
      (choose own injected).map (Match.renamed rename) := by
  cases own with
  | none => cases injected <;> rfl
  | some own =>
    cases injected with
    | none => rfl
    | some injected =>
      obtain ⟨first, injected⟩ := injected
      simp only [Option.map_some, Prod.map_apply, choose, Match.renamed, id_eq]
      split <;> rfl

/-- What matches next under the one numbering matches next under the other. -/
theorem findNext_renamed (line : SourceLine) (pos : Nat) (flavour : Flavour)
    (stack other : Stack) (rule : other.top.rule = numbering.rename stack.top.rule)
    (ending : other.top.ending = stack.top.ending)
    (scopes : other.contentScopes = stack.contentScopes) (workspace : Workspace) :
    findNext engine right line pos flavour other (workspace.renamed numbering.rename) =
      ((findNext engine left line pos flavour stack workspace).1.map
          (Match.renamed numbering.rename),
        (findNext engine left line pos flavour stack workspace).2.renamed numbering.rename) := by
  have key : (⟨other.top.rule, flavour, other.top.ending⟩ : SetKey) =
      SetKey.renamed numbering.rename ⟨stack.top.rule, flavour, stack.top.ending⟩ := by
    rw [rule, ending]
    rfl
  unfold findNext
  rw [key, findInRule_renamed, numbering.injections, scopes]
  simp only [List.isEmpty_map]
  split
  · rfl
  · have injected := numbering.findInjected_renamed engine line pos flavour
      stack.contentScopes.names none left.injections
    rw [Option.map_none] at injected
    simp only [injected, choose_renamed]

end Renumbering
end ScopeLexer

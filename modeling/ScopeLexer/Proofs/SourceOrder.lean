import ScopeLexer.Grammar.SourceReader
import ScopeLexer.Proofs.DependencyWalk

/-! The places that a grammar names. A grammar that is read from a document names every place
once, and only places that it has rules for: a rule is given its place when it has been read,
and the place is named where the rule stands in the document. What has been read is dropped
where it turns out to fit a shape of another kind, and then the places are given out anew. -/
namespace ScopeLexer

open Grammar Json

/-- The places that a rule names: of the rules in it, and in its repository. -/
def Grammar.RuleSource.namedPlaces (rule : RuleSource) : List Place :=
  rule.heldPlaces ++ (rule.repository.map Table.values).getD []

theorem Grammar.RuleSource.count_namedPlaces (rule : RuleSource) (place : Place) :
    rule.namedPlaces.count place = (rule.patterns.getD []).count place +
      ((rule.captures.map Table.values).getD []).count place +
      ((rule.beginCaptures.map Table.values).getD []).count place +
      ((rule.endCaptures.map Table.values).getD []).count place +
      ((rule.whileCaptures.map Table.values).getD []).count place +
      ((rule.repository.map Table.values).getD []).count place := by
  simp only [namedPlaces, heldPlaces, capturedPlaces, captureTables, List.flatMap_cons,
    List.flatMap_nil, List.count_append, List.count_nil]
  omega

namespace GrammarSource

/-- The places that a grammar names: at its top level, for its injections, in its repository,
and in its rules. -/
def namedPlaces (grammar : GrammarSource) : List Place :=
  grammar.startPlaces ++ grammar.rules.toList.flatMap RuleSource.namedPlaces

/-- Every place that a grammar names has a rule, and is named once. -/
structure Orderly (grammar : GrammarSource) : Prop where
  inside : ∀ place ∈ grammar.namedPlaces, place < grammar.rules.size
  once : grammar.namedPlaces.Nodup

end GrammarSource

/-- What is done in two parts succeeds only through both. -/
theorem ok_of_bind {first : Except ε α} {next : α → Except ε β}
    (done : first >>= next = .ok value) : ∃ part, first = .ok part ∧ next part = .ok value := by
  cases first with
  | error error => cases done
  | ok part => exact ⟨part, rfl, done⟩

namespace Table

/-- Putting in an entry adds its place once, at most. -/
theorem count_insertEntry (key : String) (value : Place) (entries : List (String × Place))
    (place : Place) :
    ((insertEntry key value entries).map Prod.snd).count place ≤
      (entries.map Prod.snd).count place + [value].count place := by
  induction entries with
  | nil => simp [insertEntry]
  | cons entry rest ih =>
    obtain ⟨other, held⟩ := entry
    unfold insertEntry
    split
    · simp only [List.map_cons, List.count_cons, List.count_nil]
      omega
    · split
      · simp only [List.map_cons, List.count_cons, List.count_nil]
        omega
      · simp only [List.map_cons, List.count_cons] at ih ⊢
        omega

/-- Of values under one key the table has the last one only. -/
theorem count_values_ofList (writes : List (String × Place)) (place : Place) :
    (ofList writes).values.count place ≤ (writes.map Prod.snd).count place := by
  have each (table : Table Place) : (writes.foldl (fun table entry =>
      table.insert entry.1 entry.2) table).values.count place ≤
        table.values.count place + (writes.map Prod.snd).count place := by
    induction writes generalizing table with
    | nil => simp
    | cons entry rest ih =>
      obtain ⟨key, value⟩ := entry
      have one := count_insertEntry key value table.entries place
      have others := ih (table.insert key value)
      simp only [List.foldl_cons, List.map_cons, List.count_cons, List.count_nil, insert,
        values] at one others ⊢
      omega
  have whole := each empty
  simp only [values, empty, List.map_nil, List.count_nil, Nat.zero_add] at whole
  exact whole

end Table

namespace Grammar

/-- From some rules to more: what is named now, in the new rules and otherwise, was named
before, or is the place of a new rule; and nothing is named more often than that. -/
def Numbered (before after : Array RuleSource) (old new : List Place) : Prop :=
  ∃ added, after.toList = before.toList ++ added ∧ ∀ place,
    new.count place + (added.flatMap RuleSource.namedPlaces).count place ≤
      old.count place + (List.range' before.size added.length).count place

theorem Numbered.refl {old new : List Place} (fewer : ∀ place, new.count place ≤ old.count place)
    (rules : Array RuleSource) : Numbered rules rules old new :=
  ⟨[], by simp, by simpa using fewer⟩

/-- Two readers in a row number what they read, one after the other. -/
theorem Numbered.trans {before middle after : Array RuleSource} {old named new : List Place}
    (first : Numbered before middle old named) (second : Numbered middle after named new) :
    Numbered before after old new := by
  obtain ⟨added, rules, counts⟩ := first
  obtain ⟨more, others, otherCounts⟩ := second
  have size : middle.size = before.size + added.length := by
    simpa using congrArg List.length rules
  refine ⟨added ++ more, by rw [others, rules, List.append_assoc], fun place => ?_⟩
  have here := counts place
  have there := otherCounts place
  rw [size] at there
  rw [List.flatMap_append, List.length_append, ← List.range'_append_1, List.count_append,
    List.count_append]
  omega

/-- What is named elsewhere stays named. -/
theorem Numbered.frame {before after : Array RuleSource} {old new : List Place}
    (numbered : Numbered before after old new) (frame : List Place) :
    Numbered before after (old ++ frame) (new ++ frame) := by
  obtain ⟨added, rules, counts⟩ := numbered
  refine ⟨added, rules, fun place => ?_⟩
  have here := counts place
  rw [List.count_append, List.count_append]
  omega

/-- A reader that numbers what it reads. -/
def Reads (read : ReadRules α) (old : List Place) (named : α → List Place) : Prop :=
  ∀ rules value after, read.run rules = .ok (value, after) →
    Numbered rules after old (named value)

section Reading

variable {old : List Place} {named : α → List Place}

theorem reads_pure {value : α}
    (fewer : ∀ place, (named value).count place ≤ old.count place) :
    Reads (pure value) old named := by
  rintro rules _ _ ⟨⟩
  exact .refl fewer rules

theorem reads_throw (error : DecodeError) : Reads (throw error) old named := by
  rintro rules value after ⟨⟩

theorem Reads.bind {first : ReadRules β} {next : β → ReadRules α} {middle : β → List Place}
    (head : Reads first old middle) (tail : ∀ value, Reads (next value) (middle value) named) :
    Reads (first >>= next) old named := by
  intro rules result after done
  rw [StateT.run_bind] at done
  obtain ⟨⟨value, read⟩, run, rest⟩ := ok_of_bind done
  exact (head rules value read run).trans (tail value read result after rest)

theorem Reads.frame {read : ReadRules α} (reads : Reads read old named) (frame : List Place) :
    Reads read (old ++ frame) fun value => named value ++ frame :=
  fun rules value after done => (reads rules value after done).frame frame

/-- What a failed reader has added is forgotten. -/
theorem ok_of_tryCatch {first : ReadRules α} {other : DecodeError → ReadRules α}
    (done : (tryCatch first other).run rules = .ok result) :
    first.run rules = .ok result ∨ ∃ error, (other error).run rules = .ok result := by
  have done : (MonadExcept.tryCatch (first.run rules) fun error => (other error).run rules) =
    Except.ok result := done
  cases run : first.run rules with
  | ok found =>
    rw [run] at done
    exact .inl done
  | error error =>
    rw [run] at done
    exact .inr ⟨error, done⟩

theorem Reads.tryCatch {first : ReadRules α} {other : DecodeError → ReadRules α}
    (head : Reads first old named) (tail : ∀ error, Reads (other error) old named) :
    Reads (tryCatch first other) old named := by
  intro rules value after done
  rcases ok_of_tryCatch done with run | ⟨error, run⟩
  · exact head rules value after run
  · exact tail error rules value after run

theorem reads_orFault (fault : Option Fault) : Reads (orFault fault) old fun _ => old := by
  cases fault with
  | none => exact reads_pure fun _ => Nat.le_refl _
  | some fault => exact reads_throw _

theorem reads_readName (json : Json) (name : Json.Name) :
    Reads (readName json name) old fun _ => old := by
  cases name with
  | text name => exact reads_pure fun _ => Nat.le_refl _
  | loneSurrogate | missing => exact reads_throw _

theorem reads_readText (wanted : String) (allowed : Nat) (json : Json) :
    Reads (readText wanted allowed json) old fun _ => old := by
  unfold readText
  split
  · exact reads_pure fun _ => Nat.le_refl _
  · exact reads_throw _

theorem reads_optional {read : Nat → Json → ReadRules α} {named : α → List Place}
    (reads : ∀ allowed json, Reads (read allowed json) [] named) (allowed : Nat) (json : Json) :
    Reads (Json.optional read allowed json) [] fun value => (value.map named).getD [] := by
  unfold Json.optional
  split
  · exact reads_pure fun _ => Nat.le_refl _
  · rw [map_eq_pure_bind]
    exact (reads allowed json).bind fun value => reads_pure fun _ => Nat.le_refl _

/-- A field of a record takes the place of what the record had there. -/
theorem Reads.field {read : ReadRules β} {part : β → List Place} (reads : Reads read [] part)
    {record : α} {put : β → α}
    (fewer : ∀ value place,
      (named (put value)).count place ≤ (part value).count place + (named record).count place) :
    Reads (do return put (← read)) (named record) named := by
  refine (reads.frame (named record)).bind fun value => reads_pure fun place => ?_
  rw [List.count_append]
  exact fewer value place

theorem reads_mapM {read : β → ReadRules α} {named : α → List Place}
    (reads : ∀ item, Reads (read item) [] named) (items : List β) :
    Reads (items.mapM read) [] fun values => values.flatMap named := by
  induction items with
  | nil => exact reads_pure fun _ => Nat.le_refl _
  | cons item items ih =>
    rw [List.mapM_cons]
    refine (reads item).bind fun value => (ih.frame (named value)).bind fun values => ?_
    refine reads_pure fun place => ?_
    rw [List.flatMap_cons, List.count_append, List.count_append]
    omega

theorem reads_readList {read : Nat → Json → ReadRules α} {named : α → List Place}
    (reads : ∀ allowed json, Reads (read allowed json) [] named) (allowed : Nat) (json : Json) :
    Reads (readList read allowed json) [] fun values => values.flatMap named := by
  unfold readList
  split
  · split
    · exact reads_throw _
    · exact (reads_mapM (reads _) _).bind fun values =>
        (reads_orFault _).bind fun _ => reads_pure fun _ => Nat.le_refl _
  · exact reads_throw _

/-- A table of rules names each rule read from it once. -/
theorem reads_readTable {read : Nat → Json → ReadRules Place}
    (reads : ∀ allowed json, Reads (read allowed json) [] fun place => [place]) (allowed : Nat)
    (json : Json) : Reads (readTable read allowed json) [] Table.values := by
  unfold readTable
  split
  · split
    · exact reads_throw _
    next allowed =>
      have each (member : Json.Name × Json) : Reads (do
          return (← readName member.2 member.1, ← read allowed member.2)) []
          fun write : String × Place => [write.2] :=
        (reads_readName _ _).bind fun name => (reads _ _).bind fun place =>
          reads_pure fun _ => Nat.le_refl _
      refine (reads_mapM each _).bind fun writes => (reads_orFault _).bind fun _ => ?_
      refine reads_pure fun place => ?_
      rw [← List.map_eq_flatMap]
      exact Table.count_values_ofList writes place
  · exact reads_throw _

section Records

variable {shape : RecordShape} {named : σ → List Place} {set : String → Json → σ → ReadRules σ}
  (reads : ∀ field json record, Reads (set field json record) (named record) named)
include reads

/-- Reading members into a record numbers what the fields name. -/
theorem reads_readMembersInto (seen : List String) (members : List (Json.Name × Json))
    (record : σ) :
    Reads (readMembersInto shape set seen members record) (named record) fun result =>
      named result.2 := by
  induction members generalizing seen record with
  | nil => exact reads_pure fun _ => Nat.le_refl _
  | cons member members ih =>
    obtain ⟨name, json⟩ := member
    rw [readMembersInto]
    refine (reads_readName json name).bind fun name => ?_
    split
    · split
      · exact reads_throw _
      · exact (reads name json record).bind (ih _)
    · exact (reads_orFault _).bind fun _ => ih seen record

/-- Reading the fields from a list numbers what the fields name. -/
theorem reads_readItemsInto (fault : Option Fault) (count : Nat) (fields : List String)
    (items : List Json) (record : σ) :
    Reads (readItemsInto shape set fault count fields items record) (named record) named := by
  induction items generalizing count fields record with
  | nil =>
    cases fields with
    | nil => exact (reads_orFault fault).bind fun _ => reads_pure fun _ => Nat.le_refl _
    | cons field fields =>
      refine (reads_orFault fault).bind fun _ => ?_
      split
      · exact (reads_throw _).bind fun _ => reads_pure fun _ => Nat.le_refl _
      · exact reads_pure fun _ => Nat.le_refl _
  | cons item items ih =>
    cases fields with
    | nil => exact reads_throw _
    | cons field fields =>
      exact (reads field item record).bind fun record => ih _ _ record

end Records

/-- Reading a record numbers what its fields name, in either form. -/
theorem reads_readRecord {shape : RecordShape} {named : σ → List Place}
    {set : Nat → String → Json → σ → ReadRules σ}
    (reads : ∀ allowed field json record,
      Reads (set allowed field json record) (named record) named)
    (start : σ) (allowed : Nat) (json : Json) :
    Reads (readRecord shape set start allowed json) (named start) named := by
  unfold readRecord
  split
  · exact reads_throw _
  · exact reads_throw _
  · refine (reads_readMembersInto (reads _) _ _ _).bind fun result =>
      (reads_orFault _).bind fun _ => ?_
    split
    · exact reads_throw _
    · exact reads_pure fun _ => Nat.le_refl _
  · exact reads_readItemsInto (reads _) _ _ _ _ _
  · exact reads_throw _

end Reading

theorem reads_addRule {rule : RuleSource} {old : List Place}
    (fewer : ∀ place, rule.namedPlaces.count place ≤ old.count place) :
    Reads (addRule rule) old fun place => [place] := by
  rintro rules _ _ ⟨⟩
  refine ⟨[rule], Array.toList_push, fun place => ?_⟩
  have inside := fewer place
  simp only [List.flatMap_singleton, List.length_singleton, List.range'_one]
  omega

/-- A switch numbers nothing, however it is written. -/
theorem reads_readSwitch {old : List Place} (allowed : Nat) (json : Json) :
    Reads (readSwitch allowed json) old fun _ => old := by
  have given (value : Bool) : Reads (pure value) old fun _ => old :=
    reads_pure fun _ => Nat.le_refl _
  unfold readSwitch
  split
  · exact given _
  · exact given _
  · refine (reads_orFault _).bind fun _ => ?_
    split
    · split
      · split
        · exact given _
        · exact reads_throw _
      · exact reads_throw _
    · exact reads_throw _

/-- A reader of rules gives the place of a rule. -/
def ReadsRules (read : Nat → Json → ReadRules Place) : Prop :=
  ∀ allowed json, Reads (read allowed json) [] fun place => [place]

section Rules

variable {read : Nat → Json → ReadRules Place} (reads : ReadsRules read)
include reads

theorem reads_places (allowed : Nat) (json : Json) :
    Reads (readList read allowed json) [] fun places => places := by
  have each : (fun places : List Place => places.flatMap fun place => [place]) = fun places =>
    places := funext List.flatMap_singleton'
  rw [← each]
  exact reads_readList reads allowed json

theorem reads_readRepositoryEntry : ReadsRules (readRepositoryEntry read) := by
  intro allowed json
  refine (reads_orFault _).bind fun _ => Reads.tryCatch ?_ fun _ => ?_
  · refine (reads_places reads allowed json).bind fun places => reads_addRule fun place => ?_
    simp [RuleSource.count_namedPlaces]
  · exact Reads.tryCatch (reads allowed json) fun _ => reads_throw _

theorem reads_readRepository (allowed : Nat) (json : Json) :
    Reads (readRepository read allowed json) [] fun table => (table.map Table.values).getD [] :=
  reads_optional (reads_readTable (reads_readRepositoryEntry reads)) allowed json

/-- Each field of a rule numbers the rules that it names, once. -/
theorem reads_readRuleField (allowed : Nat) (field : String) (json : Json) (rule : RuleSource) :
    Reads (readRuleField read allowed field json rule) rule.namedPlaces
      RuleSource.namedPlaces := by
  have text := reads_optional (reads_readText "a string") allowed json
  have table := reads_optional (reads_readTable reads) allowed json
  unfold readRuleField
  simp only
  split
  -- Texts and switches name no place.
  case h_1 | h_2 | h_3 | h_4 | h_6 | h_8 | h_10 =>
    exact text.field fun _ _ => Nat.le_add_left _ _
  case h_14 =>
    exact (reads_readSwitch allowed json).bind fun _ => reads_pure fun _ => Nat.le_refl _
  -- Each of the other fields names what has been read for it.
  case h_5 | h_7 | h_9 | h_11 =>
    refine table.field fun value place => ?_
    simp only [RuleSource.count_namedPlaces]
    omega
  case h_12 =>
    refine (reads_optional (reads_places reads) allowed json).field fun value place => ?_
    simp only [RuleSource.count_namedPlaces, Option.map_id_fun', id_eq]
    omega
  case h_13 =>
    refine (reads_readRepository reads allowed json).field fun value place => ?_
    simp only [RuleSource.count_namedPlaces]
    omega

end Rules

/-- A rule is given a place after the rules in it. -/
theorem reads_readRule (depth : Nat) : ReadsRules (readRule depth) := by
  induction depth with
  | zero => exact fun _ _ => reads_throw _
  | succ depth ih =>
    intro allowed json
    exact (reads_readRecord (reads_readRuleField ih) {} allowed json).bind fun rule =>
      reads_addRule fun _ => Nat.le_refl _

theorem count_startPlaces (grammar : GrammarSource) (place : Place) :
    grammar.startPlaces.count place = grammar.patterns.count place +
      ((grammar.injections.map Table.values).getD []).count place +
      ((grammar.repository.map Table.values).getD []).count place := by
  simp only [GrammarSource.startPlaces, GrammarSource.topPlaces, List.count_append]

/-- Each field of a grammar numbers the rules that it names, once. -/
theorem reads_readGrammarField (allowed : Nat) (field : String) (json : Json)
    (grammar : GrammarSource) :
    Reads (readGrammarField allowed field json grammar) grammar.startPlaces
      GrammarSource.startPlaces := by
  have rules := reads_readRule (maxNesting + 1)
  have text := reads_optional (reads_readText "a string") allowed json
  have texts := reads_readList (reads_readText "a string") allowed json
  unfold readGrammarField
  simp only
  split
  case h_1 =>
    exact (reads_readText _ allowed json).bind fun _ => reads_pure fun _ => Nat.le_refl _
  case h_2 | h_3 | h_5 | h_9 =>
    exact text.field fun _ _ => Nat.le_add_left _ _
  case h_4 | h_10 =>
    exact texts.field fun _ _ => Nat.le_add_left _ _
  case h_6 =>
    refine (reads_places rules allowed json).field fun value place => ?_
    simp only [count_startPlaces]
    omega
  case h_7 =>
    refine (reads_readRepository rules allowed json).field fun value place => ?_
    simp only [count_startPlaces]
    omega
  case h_8 =>
    refine (reads_optional (reads_readTable rules) allowed json).field fun value place => ?_
    simp only [count_startPlaces]
    omega

end Grammar

namespace GrammarSource

/-- What a grammar names has a rule and is named once, if that was added when it was read. -/
theorem orderly_of_numbered {grammar : GrammarSource}
    (numbered : Numbered #[] grammar.rules [] grammar.startPlaces) : grammar.Orderly := by
  obtain ⟨added, rules, counts⟩ := numbered
  have same : grammar.rules.toList = added := by simpa using rules
  have each (place : Place) :
      grammar.namedPlaces.count place ≤ (List.range grammar.rules.size).count place := by
    have count := counts place
    rw [← same, List.count_nil, Nat.zero_add, Array.size_empty, Array.length_toList,
      ← List.range_eq_range'] at count
    rwa [namedPlaces, List.count_append]
  refine ⟨fun place member => ?_, List.nodup_iff_count.mpr fun place => ?_⟩
  · have positive := Nat.lt_of_lt_of_le (List.count_pos_iff.mpr member) (each place)
    exact List.mem_range.mp (List.count_pos_iff.mp positive)
  · exact Nat.le_trans (each place) (List.nodup_iff_count.mp List.nodup_range place)

/-- A grammar that is read from a document is orderly. -/
theorem orderly_ofText {text : String} {grammar : GrammarSource}
    (read : ofText text = .ok grammar) : grammar.Orderly := by
  obtain ⟨value, done, rest⟩ := ok_of_bind read
  obtain ⟨⟨top, rules⟩, run, made⟩ := ok_of_bind done
  have numbered := reads_readRecord reads_readGrammarField {} _ _ _ _ _ run
  cases made
  split at rest
  · cases rest
  · cases rest
    exact orderly_of_numbered numbered

theorem orderly_of_toOption {text : String} {grammar : GrammarSource}
    (read : (ofText text).toOption = some grammar) : grammar.Orderly := by
  cases answer : ofText text with
  | error error =>
    rw [answer] at read
    cases read
  | ok other =>
    rw [answer] at read
    cases read
    exact orderly_ofText answer

end GrammarSource
end ScopeLexer

import ScopeLexer.Line.Finder

/-! What is remembered of compiled patterns never shows. A store serves a
grammar if each of its slots is empty or holds what the engine makes of the
pattern in that flavour. Every reading of such a store gives a value that is
the same for all of them, and leaves one of them behind; so the sets of
patterns built from a store are those built from one that nothing has been
compiled in. -/
namespace ScopeLexer

open Grammar Pattern Regex

/-- What an engine makes of a pattern in a flavour, if it accepts it. -/
def Pattern.searcher (pattern : Pattern) (engine : Engine) (flavour : Flavour) : Option Searcher :=
  (engine.compile ((if pattern.hasAnchors then flavour else .both).replaceAnchors
    pattern.source)).toOption

/-- A searcher that the engine compiles from some text. -/
def Regex.Engine.Makes (engine : Engine) (searcher : Searcher) : Prop :=
  ∃ text, engine.compile text = .ok searcher

theorem Pattern.searcher_made {pattern : Pattern} {searcher : Searcher}
    (compiled : pattern.searcher engine flavour = some searcher) : engine.Makes searcher := by
  unfold Pattern.searcher at compiled
  cases made : engine.compile _ with
  | error reason =>
    rw [made] at compiled
    cases compiled
  | ok other =>
    rw [made] at compiled
    cases compiled
    exact ⟨_, made⟩

namespace CachedPattern

/-- Each slot that has been filled holds what the engine makes of the pattern. -/
def Sound (engine : Engine) (cached : CachedPattern) : Prop :=
  ∀ flavour result, cached.slot flavour = some result →
    result = (engine.compile (flavour.replaceAnchors cached.pattern.source)).toOption

theorem slot_setSlot (cached : CachedPattern) (filled asked : Flavour) (result : Option Searcher) :
    (cached.setSlot filled result).slot asked =
      if asked = filled then some result else cached.slot asked := by
  cases filled <;> cases asked <;> rfl

@[simp]
theorem pattern_setSlot (cached : CachedPattern) (filled : Flavour) (result : Option Searcher) :
    (cached.setSlot filled result).pattern = cached.pattern := by
  cases filled <;> rfl

theorem sound_untouched (engine : Engine) (pattern : Pattern) :
    ({ pattern := pattern } : CachedPattern).Sound engine := by
  intro flavour result filled
  cases flavour <;> cases filled

theorem Sound.setSlot (sound : Sound engine cached) (flavour : Flavour)
    (made : result = (engine.compile (flavour.replaceAnchors cached.pattern.source)).toOption) :
    Sound engine (cached.setSlot flavour result) := by
  intro asked held filled
  rw [slot_setSlot] at filled
  rw [pattern_setSlot]
  split at filled
  next same =>
    cases filled
    rw [same]
    exact made
  next => exact sound asked held filled

/-- Checking a pattern remembers what the engine makes of it as written. -/
theorem Sound.validate (sound : Sound engine cached)
    (valid : cached.validate engine journal = (.ok checked, after)) :
    checked.pattern = cached.pattern ∧ Sound engine checked := by
  unfold CachedPattern.validate at valid
  cases answer : engine.compile cached.pattern.source with
  | error reason =>
    rw [answer] at valid
    cases valid
  | ok searcher =>
    rw [answer] at valid
    cases valid
    unfold fillSlot
    split
    next => exact ⟨rfl, sound⟩
    next =>
      refine ⟨pattern_setSlot .., sound.setSlot .both ?_⟩
      exact (congrArg Except.toOption answer).symm

/-- Compiling gives what the engine makes of the pattern, remembered or not. -/
theorem Sound.compiled (sound : Sound engine cached) (flavour : Flavour) (journal : Journal) :
    (cached.compiled engine flavour journal).1 = cached.pattern.searcher engine flavour ∧
      (cached.compiled engine flavour journal).2.1.pattern = cached.pattern ∧
      Sound engine (cached.compiled engine flavour journal).2.1 := by
  cases held : cached.slot (cached.slotFlavour flavour) with
  | some result =>
    have recalled : cached.compiled engine flavour journal = (result, cached, journal) := by
      simp only [CachedPattern.compiled, held]
    rw [recalled]
    exact ⟨sound _ result held, rfl, sound⟩
  | none =>
    have made : cached.pattern.searcher engine flavour = (engine.compile
      ((cached.slotFlavour flavour).replaceAnchors cached.pattern.source)).toOption := rfl
    have parts : ∃ journal', cached.compiled engine flavour journal =
        (cached.pattern.searcher engine flavour, cached.setSlot (cached.slotFlavour flavour)
          (cached.pattern.searcher engine flavour), journal') := by
      rw [made]
      simp only [CachedPattern.compiled, held]
      cases engine.compile ((cached.slotFlavour flavour).replaceAnchors cached.pattern.source) with
      | ok searcher => exact ⟨_, rfl⟩
      | error reason => exact ⟨_, rfl⟩
    obtain ⟨journal', parts⟩ := parts
    rw [parts]
    exact ⟨rfl, pattern_setSlot .., sound.setSlot _ made⟩

end CachedPattern

namespace Pattern

section Splicing

variable {flavour : Flavour} {pattern written rest : List Char} {last pos : Nat}

private theorem drop_further (here : pattern.drop pos = rest) (count : Nat) :
    pattern.drop (pos + count) = rest.drop count := by
  rw [← List.drop_drop, here]

/-- What has been passed since the last replacement is part of what is copied next. -/
private theorem take_passed (here : pattern.drop pos = rest) (reached : last ≤ pos) (count : Nat) :
    (pattern.drop last).take (pos + count - last) =
      (pattern.drop last).take (pos - last) ++ rest.take count := by
  have split : pos + count - last = pos - last + count := by omega
  rw [split, List.take_add, List.drop_drop, Nat.add_sub_cancel' reached, here]

private theorem splice_finished (here : pattern.drop pos = rest) (reached : last ≤ pos) :
    pattern.drop last = (pattern.drop last).take (pos - last) ++ rest := by
  have left : (pattern.drop last).drop (pos - last) = rest := by
    rw [List.drop_drop, Nat.add_sub_cancel' reached, here]
  rw [← left, List.take_append_drop]

/-- What is copied and what is replaced make up the pattern, replaced unit by unit. -/
theorem spliceFrom_eq (here : pattern.drop pos = rest) (reached : last ≤ pos) :
    flavour.spliceFrom pattern written last pos rest =
      written ++ (pattern.drop last).take (pos - last) ++ flavour.replaceChars rest := by
  fun_induction Flavour.spliceFrom flavour pattern written last pos rest with
  | case1 written last pos | case2 written last pos =>
    rw [Flavour.replaceChars, List.append_assoc, ← splice_finished here reached]
  | case3 written last pos letter rest replaced copied ih =>
    rw [ih (drop_further here 2) (Nat.le_refl _), Flavour.replaceChars, if_pos replaced]
    simp [copied]
  | case4 written last pos letter rest kept ih =>
    rw [ih (drop_further here 2) (by omega), take_passed here reached 2, Flavour.replaceChars,
      if_neg kept]
    simp
  | case5 written last pos c rest alone plain ih =>
    rw [ih (drop_further here 1) (by omega), take_passed here reached 1,
      Flavour.replaceChars.eq_4 _ _ _ alone plain]
    simp

end Splicing

/-- With both conditions at hand a pattern stays as it is. -/
theorem replaceAnchors_both (pattern : String) : Flavour.both.replaceAnchors pattern = pattern := rfl

/-- A pattern without conditions is compiled as it stands. -/
theorem searcher_of_compile {engine : Engine} {text : String} {searcher : Searcher}
    (compiled : engine.compile text = .ok searcher) (flavour : Flavour) :
    ({ source := text } : Pattern).searcher engine flavour = some searcher := by
  show (engine.compile (Flavour.both.replaceAnchors text)).toOption = some searcher
  rw [replaceAnchors_both, compiled]
  rfl

/-- The conditions of a pattern are replaced unit by unit. -/
theorem replaceAnchors_eq (flavour : Flavour) (pattern : String) :
    flavour.replaceAnchors pattern = String.ofList (flavour.replaceChars pattern.toList) := by
  unfold Flavour.replaceAnchors
  split
  next both =>
    have kept (chars : List Char) : Flavour.both.replaceChars chars = chars := by
      fun_induction Flavour.replaceChars .both chars with
      | case1 => rfl
      | case2 => rfl
      | case3 letter rest replaced => simp [Flavour.allows] at replaced
      | case4 letter rest kept ih => rw [ih]
      | case5 c rest _ _ ih => rw [ih]
    rw [both, kept, String.ofList_toList]
  next =>
    rw [spliceFrom_eq List.drop_zero (Nat.le_refl 0)]
    simp

namespace Store

/-- The store of a grammar of which nothing has been compiled. -/
def untouched (grammar : CompiledGrammar) : Store where
  patterns := grammar.patterns.map fun pattern => { pattern := pattern }

/-- The patterns are those of the grammar, the resolved ones those of their
texts, and what has been compiled was compiled by the engine. -/
structure Serves (engine : Engine) (grammar : CompiledGrammar) (store : Store) : Prop where
  patterns : store.patterns.map CachedPattern.pattern = grammar.patterns
  sound : ∀ cached ∈ store.patterns, cached.Sound engine
  resolved : ∀ text cached, store.resolved.get? text = some cached →
    cached.pattern = .ofText text ∧ cached.Sound engine

theorem serves_untouched (engine : Engine) (grammar : CompiledGrammar) :
    (untouched grammar).Serves engine grammar where
  patterns := by simp [untouched, Function.comp_def]
  sound cached member := by
    simp only [untouched, Array.mem_map] at member
    obtain ⟨pattern, _, rfl⟩ := member
    exact CachedPattern.sound_untouched engine pattern
  resolved text cached held := by simp [untouched] at held

theorem Serves.journal (serves : Serves engine grammar store) (journal : Journal) :
    Serves engine grammar { store with journal := journal } :=
  ⟨serves.patterns, serves.sound, serves.resolved⟩

/-- A reading of the store whose value is the same for every store that serves
the grammar, and that leaves such a store. -/
def Steady (engine : Engine) (grammar : CompiledGrammar) (read : Store → α × Store) : Prop :=
  ∃ value, ∀ store, Serves engine grammar store →
    (read store).1 = value ∧ Serves engine grammar (read store).2

theorem Steady.eq_untouched {read : Store → α × Store} (steady : Steady engine grammar read)
    (serves : Serves engine grammar store) :
    (read store).1 = (read (untouched grammar)).1 := by
  obtain ⟨value, reads⟩ := steady
  rw [(reads store serves).1, (reads _ (serves_untouched engine grammar)).1]

theorem Steady.serves {read : Store → α × Store} (steady : Steady engine grammar read)
    (serves : Serves engine grammar store) : Serves engine grammar (read store).2 := by
  obtain ⟨_, reads⟩ := steady
  exact (reads store serves).2

/-- A pattern compiled in one more flavour serves the grammar as before. -/
private theorem Serves.setOwn {id : PatternId} (serves : Serves engine grammar store)
    (held : store.patterns[id]? = some cached) (same : fresh.pattern = cached.pattern)
    (sound : CachedPattern.Sound engine fresh) (journal : Journal) :
    Serves engine grammar
      { store with patterns := store.patterns.setIfInBounds id fresh, journal := journal } where
  patterns := by
    rw [← serves.patterns, Array.map_setIfInBounds, same]
    apply Array.ext_getElem?
    intro index
    rw [Array.getElem?_setIfInBounds]
    split
    next here =>
      subst here
      have bound : id < store.patterns.size := (Array.getElem?_eq_some_iff.mp held).1
      rw [if_pos (by simpa using bound), Array.getElem?_map, held]
      rfl
    next => rfl
  sound other member := by
    rcases Array.mem_or_eq_of_mem_setIfInBounds member with old | rfl
    · exact serves.sound other old
    · exact sound
  resolved := serves.resolved

/-- What a store that serves the grammar gives for a pattern of the grammar. -/
theorem Serves.own_eq (serves : Serves engine grammar store) (id : PatternId) (flavour : Flavour) :
    (store.own engine id flavour).1 = (match grammar.patterns[id]? with
      | none => (none, false)
      | some pattern => (pattern.searcher engine flavour, pattern.hasG)) ∧
    Serves engine grammar (store.own engine id flavour).2 := by
  have read : grammar.patterns[id]? = (store.patterns[id]?).map CachedPattern.pattern := by
    rw [← serves.patterns, Array.getElem?_map]
  cases held : store.patterns[id]? with
  | none =>
    rw [held] at read
    simp only [own, held, read, Option.map_none]
    exact ⟨trivial, serves⟩
  | some cached =>
    rw [held] at read
    obtain ⟨value, same, sound⟩ :=
      (serves.sound cached (Array.mem_of_getElem? held)).compiled flavour store.journal
    simp only [own, held, read, Option.map_some, value, same]
    exact ⟨trivial, serves.setOwn held same sound _⟩

theorem own_steady (engine : Engine) (grammar : CompiledGrammar) (id : PatternId)
    (flavour : Flavour) : Steady engine grammar fun store => store.own engine id flavour :=
  ⟨_, fun _ serves => serves.own_eq id flavour⟩

/-- What is remembered under a completed text is the pattern of that text. -/
private theorem recallResolved_sound (serves : Serves engine grammar store) (text : String) :
    (recallResolved store.resolved text).1.pattern = .ofText text ∧
      (recallResolved store.resolved text).1.Sound engine ∧
      ∀ other cached, (recallResolved store.resolved text).2.get? other = some cached →
        cached.pattern = .ofText other ∧ cached.Sound engine := by
  cases held : store.resolved.get? text with
  | some cached =>
    obtain ⟨same, sound⟩ := serves.resolved text cached held
    simp only [recallResolved, held]
    exact ⟨same, sound, serves.resolved⟩
  | none =>
    simp only [recallResolved, held]
    refine ⟨rfl, CachedPattern.sound_untouched engine _, ?_⟩
    intro other cached found
    split at found
    · cases found
    · exact serves.resolved other cached found

/-- What a store that serves the grammar gives for a resolved pattern. -/
theorem Serves.resolvedText_eq (serves : Serves engine grammar store) (text : String)
    (flavour : Flavour) :
    (store.resolvedText engine text flavour).1 =
      ((Pattern.ofText text).searcher engine flavour, (Pattern.ofText text).hasG) ∧
    Serves engine grammar (store.resolvedText engine text flavour).2 := by
  obtain ⟨same, sound, others⟩ := recallResolved_sound serves text
  obtain ⟨value, kept, compiled⟩ := sound.compiled flavour store.journal
  refine ⟨?_, serves.patterns, serves.sound, ?_⟩
  · simp only [resolvedText, value, kept, same]
  · intro other cached held
    simp only [resolvedText, Dictionary.get?_insert] at held
    split at held
    next here =>
      cases held
      rw [kept, same, here]
      exact ⟨rfl, compiled⟩
    next => exact others other cached held

theorem resolvedText_steady (engine : Engine) (grammar : CompiledGrammar) (text : String)
    (flavour : Flavour) :
    Steady engine grammar fun store => store.resolvedText engine text flavour :=
  ⟨_, fun _ serves => serves.resolvedText_eq text flavour⟩

theorem Serves.own_made {store : Store} {id : PatternId} {searcher : Searcher}
    (serves : Serves engine grammar store)
    (compiled : (store.own engine id flavour).1.1 = some searcher) : engine.Makes searcher := by
  cases held : store.patterns[id]? with
  | none =>
    simp only [own, held] at compiled
    cases compiled
  | some cached =>
    simp only [own, held] at compiled
    rw [((serves.sound cached (Array.mem_of_getElem? held)).compiled flavour store.journal).1]
      at compiled
    exact Pattern.searcher_made compiled

theorem Serves.resolvedText_made {store : Store} {searcher : Searcher}
    (serves : Serves engine grammar store)
    (compiled : (store.resolvedText engine text flavour).1.1 = some searcher) :
    engine.Makes searcher := by
  obtain ⟨_, sound, _⟩ := recallResolved_sound serves text
  simp only [resolvedText, (sound.compiled flavour store.journal).1] at compiled
  exact Pattern.searcher_made compiled

end Store
end Pattern

namespace Line

open Store

variable (engine : Engine) (grammar : CompiledGrammar)

theorem entryOf_steady (flavour : Flavour) (rule : RuleId) :
    Steady engine grammar (entryOf engine grammar flavour rule) := by
  unfold entryOf
  cases (grammar.rule rule).entryPattern with
  | none => exact ⟨none, fun store serves => ⟨rfl, serves⟩⟩
  | some pattern =>
    obtain ⟨value, reads⟩ := own_steady engine grammar pattern flavour
    refine ⟨some { target := .enter rule, searcher := value.1, hasG := value.2 }, ?_⟩
    intro store serves
    obtain ⟨same, kept⟩ := reads store serves
    exact ⟨by simp only [← same], kept⟩

/-- The entries of rules do not depend on what the store remembers. -/
theorem entriesOf_steady (flavour : Flavour) (rules : List RuleId) :
    Steady engine grammar (entriesOf engine grammar flavour rules) := by
  induction rules with
  | nil => exact ⟨[], fun store serves => ⟨rfl, serves⟩⟩
  | cons rule rules ih =>
    obtain ⟨first, readsFirst⟩ := entryOf_steady engine grammar flavour rule
    obtain ⟨rest, readsRest⟩ := ih
    refine ⟨first.toList ++ rest, ?_⟩
    intro store serves
    obtain ⟨sameFirst, keptFirst⟩ := readsFirst store serves
    obtain ⟨sameRest, keptRest⟩ := readsRest _ keptFirst
    exact ⟨by simp only [entriesOf, sameFirst, sameRest], keptRest⟩

/-- The entry of an end does not depend on what the store remembers. -/
theorem endingEntry_steady (pattern : PatternId) (hasReferences : Bool) (key : SetKey) :
    Steady engine grammar (endingEntry engine pattern hasReferences key) := by
  unfold endingEntry
  have leaving {read : Store → (Option Searcher × Bool) × Store}
      (steady : Steady engine grammar read) : Steady engine grammar fun store =>
        (({ target := .leave, searcher := (read store).1.1, hasG := (read store).1.2 } : Entry),
          (read store).2) := by
    obtain ⟨value, reads⟩ := steady
    refine ⟨{ target := .leave, searcher := value.1, hasG := value.2 }, ?_⟩
    intro store serves
    obtain ⟨same, kept⟩ := reads store serves
    exact ⟨by simp only [same], kept⟩
  cases key.ending with
  | none => exact leaving (own_steady engine grammar pattern key.flavour)
  | some text =>
    cases hasReferences with
    | true => exact leaving (resolvedText_steady engine grammar text key.flavour)
    | false => exact leaving (own_steady engine grammar pattern key.flavour)

/-- The set made for a rule does not depend on what the store remembers. -/
theorem buildRuleSet_steady (key : SetKey) :
    Steady engine grammar (buildRuleSet engine grammar key) := by
  obtain ⟨entries, readsEntries⟩ :=
    entriesOf_steady engine grammar key.flavour (grammar.candidates key.rule)
  unfold buildRuleSet
  cases grammar.rule key.rule with
  | region rule =>
    obtain ⟨ending, readsEnding⟩ :=
      endingEntry_steady engine grammar rule.stop rule.stopHasReferences key
    refine ⟨⟨if rule.stopLast then entries ++ [ending] else ending :: entries⟩, ?_⟩
    intro store serves
    obtain ⟨sameEntries, keptEntries⟩ := readsEntries store serves
    obtain ⟨sameEnding, keptEnding⟩ := readsEnding _ keptEntries
    exact ⟨by simp only [sameEntries, sameEnding], keptEnding⟩
  | single | group | block | capture | reserved =>
    refine ⟨⟨entries⟩, ?_⟩
    intro store serves
    obtain ⟨sameEntries, keptEntries⟩ := readsEntries store serves
    exact ⟨by simp only [sameEntries], keptEntries⟩

/-- The set made for conditions does not depend on what the store remembers. -/
theorem buildConditionSet_steady (key : SetKey) :
    Steady engine grammar (buildConditionSet engine grammar key) := by
  unfold buildConditionSet
  cases grammar.rule key.rule with
  | block rule =>
    obtain ⟨ending, reads⟩ :=
      endingEntry_steady engine grammar rule.condition rule.conditionHasReferences key
    refine ⟨⟨[ending]⟩, ?_⟩
    intro store serves
    obtain ⟨same, kept⟩ := reads store serves
    exact ⟨by simp only [same], kept⟩
  | single | group | region | capture | reserved => exact ⟨⟨[]⟩, fun store serves => ⟨rfl, serves⟩⟩

end Line
end ScopeLexer

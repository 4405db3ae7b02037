import ScopeLexer.Proofs.EscapedText
import ScopeLexer.Proofs.GrammarUse
import ScopeLexer.Proofs.RuleLedger

/-! Which match wins. At every byte there is one list of contenders: the patterns of
injections that come before the rule at the top, those of the rule with its end, and those
of the other injections. Of their matches from that byte the one that starts first wins,
and of those that start together the one whose pattern comes first in the list. The search
does not go over that list: it looks for the best match of each set of patterns, stops at
a match that cannot be bettered, and weighs the best of the rule against the best of all
injections. That comes to the same since taking the first of the earliest can be done in
parts. -/
namespace ScopeLexer

open Grammar Pattern Regex

namespace Line

/-- The first of the matches that start earliest. -/
def earliest (found : List Match) : Option Match :=
  found.foldl (fun best found => if better best found then some found else best) none

/-- The earlier of two matches, the first if they start together. -/
def earlier : Option Match → Option Match → Option Match
  | none, second => second
  | first, none => first
  | some first, some second => if second.start < first.start then some second else some first

@[simp]
theorem earlier_none (first : Option Match) : earlier first none = first := by
  cases first <;> rfl

theorem earlier_some (first : Option Match) (second : Match) :
    earlier first (some second) = if better first second then some second else first := by
  cases first with
  | none => rfl
  | some first => simp [earlier, better]

/-- Which of several matches comes first does not depend on how they are grouped. -/
theorem earlier_assoc (first second third : Option Match) :
    earlier (earlier first second) third = earlier first (earlier second third) := by
  cases first with
  | none => rfl
  | some first =>
    cases second with
    | none => rfl
    | some second =>
      cases third with
      | none => simp
      | some third =>
        simp only [earlier]
        by_cases early : second.start < first.start <;> by_cases late : third.start < second.start <;>
          by_cases last : third.start < first.start <;> simp [early, late, last] <;> omega

theorem foldl_earliest (best : Option Match) (found : List Match) :
    found.foldl (fun best found => if better best found then some found else best) best =
      earlier best (earliest found) := by
  induction found generalizing best with
  | nil => simp [earliest]
  | cons first found ih =>
    rw [earliest, List.foldl_cons, List.foldl_cons, ih, ih, ← earlier_some best, ← earlier_some none,
      earlier_assoc]
    rfl

@[simp]
theorem earliest_append (front back : List Match) :
    earliest (front ++ back) = earlier (earliest front) (earliest back) := by
  rw [earliest, List.foldl_append, foldl_earliest]
  rfl

theorem earliest_cons (first : Match) (found : List Match) :
    earliest (first :: found) = earlier (some first) (earliest found) :=
  earliest_append [first] found

/-- Of the matches that items of a list have, one comes first: it starts before those of
all earlier items, and no later than those of the others. -/
def ComesFirst (matched : α → Option Match) (items : List α) : Option Match → Prop
  | none => ∀ item ∈ items, matched item = none
  | some found => ∃ before winner after, items = before ++ winner :: after ∧
      matched winner = some found ∧
      (∀ item ∈ before, ∀ other, matched item = some other → found.start < other.start) ∧
      (∀ item ∈ after, ∀ other, matched item = some other → found.start ≤ other.start)

/-- Of the matches of some items in order, the one that starts first wins, and among these the one
of the first item. -/
theorem comesFirst_earliest (matched : α → Option Match) (items : List α) :
    ComesFirst matched items (earliest (items.filterMap matched)) := by
  induction items with
  | nil => exact fun _ member => nomatch member
  | cons item items ih =>
    cases own : matched item with
    | none =>
      rw [List.filterMap_cons_none own]
      cases rest : earliest (items.filterMap matched) with
      | none =>
        rw [rest] at ih
        intro other member
        rcases List.mem_cons.mp member with rfl | member
        · exact own
        · exact ih other member
      | some found =>
        rw [rest] at ih
        obtain ⟨before, winner, after, rfl, wins, first, last⟩ := ih
        refine ⟨item :: before, winner, after, rfl, wins, fun other member held seen => ?_, last⟩
        rcases List.mem_cons.mp member with rfl | member
        · cases own.symm.trans seen
        · exact first other member held seen
    | some found =>
      rw [List.filterMap_cons_some own, earliest_cons]
      -- The match of the first item wins unless one of the others starts before it.
      cases rest : earliest (items.filterMap matched) with
      | none =>
        rw [rest] at ih
        refine ⟨[], item, items, rfl, own, by simp, fun other member held seen => ?_⟩
        cases (ih other member).symm.trans seen
      | some best =>
        rw [rest] at ih
        obtain ⟨before, winner, after, rfl, wins, first, last⟩ := ih
        simp only [earlier]
        split
        next ahead =>
          refine ⟨item :: before, winner, after, rfl, wins, fun other member held seen => ?_, last⟩
          rcases List.mem_cons.mp member with rfl | member
          · cases own.symm.trans seen
            exact ahead
          · exact first other member held seen
        next behind =>
          refine ⟨[], item, _, rfl, own, by simp, fun other member held seen => ?_⟩
          have least : best.start ≤ held.start := by
            rcases List.mem_append.mp member with member | member
            · exact Nat.le_of_lt (first other member held seen)
            · rcases List.mem_cons.mp member with rfl | member
              · cases wins.symm.trans seen
                exact Nat.le_refl _
              · exact last other member held seen
          omega

theorem mem_of_earliest (wins : earliest found = some best) : best ∈ found := by
  have first := comesFirst_earliest some found
  rw [List.filterMap_some, wins] at first
  obtain ⟨before, winner, after, rfl, same, _⟩ := first
  cases same
  simp

/-- A match that no other starts before stays the best. -/
theorem earlier_of_le {first : Match}
    (least : ∀ other, second = some other → first.start ≤ other.start) :
    earlier (some first) second = some first := by
  cases second with
  | none => rfl
  | some second => simp [earlier, Nat.not_lt.mpr (least second rfl)]

/-- The match of a pattern from a byte, nothing being remembered. -/
def Entry.matchAfresh (line : SourceLine) (pos : Nat) (entry : Entry) : Option Match :=
  (entry.searchAfresh line pos).bind entry.toMatch

/-- The early end of a search does no harm if matches lie ahead of its start. -/
theorem PatternSet.bestAfresh_eq {entries : List Entry}
    (ahead : ∀ entry ∈ entries, ∀ found, entry.matchAfresh line pos = some found →
      pos ≤ found.start) (best : Option Match) :
    bestAfresh line pos best entries =
      earlier best (earliest (entries.filterMap (Entry.matchAfresh line pos))) := by
  induction entries generalizing best with
  | nil => simp [bestAfresh, earliest]
  | cons entry entries ih =>
    have ih := ih fun other member => ahead other (List.mem_cons_of_mem _ member)
    have own : (entry.searchAfresh line pos).bind entry.toMatch = entry.matchAfresh line pos := rfl
    rw [bestAfresh, own]
    cases seen : entry.matchAfresh line pos with
    | none => rw [List.filterMap_cons_none seen, Option.filter_none, ih]
    | some found =>
      rw [List.filterMap_cons_some seen, earliest_cons, ← earlier_assoc, earlier_some,
        Option.filter_some]
      by_cases wins : better best found = true
      · simp only [wins, if_true]
        split
        next here =>
          refine (earlier_of_le fun other last => ?_).symm
          obtain ⟨later, member, made⟩ := List.mem_filterMap.mp (mem_of_earliest last)
          rw [here]
          exact ahead later (List.mem_cons_of_mem _ member) other made
        next => exact ih _
      · simp only [wins, Bool.false_eq_true, if_false]
        exact ih best

section Contenders

/-- The injections with a priority. -/
def withPriority (priority : Priority) (injections : List Injection) : List Injection :=
  injections.filter fun injection => decide (injection.priority = priority)

/-- A pattern that may match next, and what its match leads to. -/
structure Contender where
  target : Target
  pattern : Pattern
  deriving DecidableEq

/-- The match of a contender, its pattern being searched for from a byte. A pattern that
the engine does not take matches nothing. -/
def Contender.matchFrom (engine : Engine) (flavour : Flavour) (line : SourceLine) (pos : Nat)
    (contender : Contender) : Option Match :=
  (contender.pattern.searcher engine flavour).bind fun searcher =>
    (searcher.search line pos).bind fun spans =>
      spans.whole.map fun span => ⟨contender.target, span.start, span.stop, spans⟩

variable (grammar : CompiledGrammar)

/-- The start of a rule. -/
def startContender (rule : RuleId) : Option Contender :=
  (grammar.rule rule).entryPattern.bind fun pattern =>
    grammar.patterns[pattern]?.map fun pattern => ⟨.enter rule, pattern⟩

/-- The end of a region. If it refers to what the start has captured it is the one given,
in which that has been put. -/
def endContender (region : RegionRule) (ending : Option String) : Option Contender :=
  (match region.stopHasReferences, ending with
    | true, some text => some (Pattern.ofText text)
    | _, _ => grammar.patterns[region.stop]?).map fun pattern => ⟨.leave, pattern⟩

/-- The contenders of a rule: the starts of the rules inside it, and its end before or after
them. -/
def ruleContenders (rule : RuleId) (ending : Option String) : List Contender :=
  let inside := (grammar.candidates rule).filterMap (startContender grammar)
  match grammar.rule rule with
  | .region region =>
    if region.stopLast then inside ++ (endContender grammar region ending).toList
    else (endContender grammar region ending).toList ++ inside
  | _ => inside

/-- The contenders of the injections with a priority whose condition holds. -/
def injectedContenders (injections : List Injection) (scopes : List String) (priority : Priority) :
    List Contender :=
  ((withPriority priority injections).filter fun injection =>
    injection.matcher.holds scopes).flatMap fun injection =>
      ruleContenders grammar injection.rule none

/-- All contenders for a stack, in order of preference. -/
def contenders (injections : List Injection) (stack : Stack) : List Contender :=
  injectedContenders grammar injections stack.contentScopes.names .left ++
    ruleContenders grammar stack.top.rule stack.top.ending ++
    injectedContenders grammar injections stack.contentScopes.names .default ++
    injectedContenders grammar injections stack.contentScopes.names .right

@[simp]
theorem contenders_nil (stack : Stack) :
    contenders grammar [] stack = ruleContenders grammar stack.top.rule stack.top.ending := by
  simp [contenders, injectedContenders, withPriority]

end Contenders

section Sets

/-- The pattern of a contender as it is put into a set. -/
def Contender.entry (engine : Engine) (flavour : Flavour) (contender : Contender) : Entry where
  target := contender.target
  searcher := contender.pattern.searcher engine flavour
  hasG := contender.pattern.hasG

/-- What is asked of a contender: that its searches may be remembered, unless its pattern has `\G`, and
that its matches lie between the start of the search and the end of the line. -/
structure Contender.Sound (engine : Engine) (flavour : Flavour) (contender : Contender) : Prop where
  steady : (contender.entry engine flavour).Steady
  inside : ∀ searcher, contender.pattern.searcher engine flavour = some searcher →
    searcher.StaysInside

/-- A contender is sound if its pattern finds the first of some attempts. -/
theorem Contender.Sound.of_findsFirst {engine : Engine} {flavour : Flavour} {contender : Contender}
    {searcher : Searcher}
    (made : contender.pattern.searcher engine flavour = some searcher)
    (finds : searcher.FindsFirst attempt) : contender.Sound engine flavour where
  steady _ other compiled := by
    cases made.symm.trans compiled
    exact finds.steady
  inside other compiled := by
    cases made.symm.trans compiled
    exact finds.inside

theorem Contender.Sound.of_spelled {engine : Engine} {contender : Contender} {text : String}
    (reads : engine.ReadsText) (pattern : contender.pattern = { source := text })
    (spelled : (spelled? text.toList).isSome) (flavour : Flavour) :
    contender.Sound engine flavour := by
  obtain ⟨word, spelled⟩ := Option.isSome_iff_exists.mp spelled
  obtain ⟨searcher, compiled, finds⟩ := reads text word spelled
  refine .of_findsFirst ?_ finds
  rw [pattern]
  exact Pattern.searcher_of_compile compiled flavour

/-- The patterns of a set that the engine takes. The others match nothing. -/
def taken (entries : List Entry) : List Entry := entries.filter (·.searcher.isSome)

@[simp]
theorem taken_append (front back : List Entry) : taken (front ++ back) = taken front ++ taken back :=
  List.filter_append ..

variable {engine : Engine} {grammar : CompiledGrammar} {store : Store}

/-- A pattern of the grammar is put into a set as a contender is. -/
theorem taken_own (serves : store.Serves engine grammar) (flavour : Flavour) (target : Target)
    (pattern : PatternId) :
    taken [⟨target, (store.own engine pattern flavour).1.1, (store.own engine pattern flavour).1.2,
        none⟩] =
      taken ((grammar.patterns[pattern]?.map fun pattern => (⟨target, pattern⟩ : Contender)).toList.map
        (Contender.entry engine flavour)) := by
  rw [(serves.own_eq pattern flavour).1]
  cases grammar.patterns[pattern]? <;> rfl

theorem taken_resolvedText (serves : store.Serves engine grammar) (flavour : Flavour)
    (target : Target) (text : String) :
    taken [⟨target, (store.resolvedText engine text flavour).1.1, (store.resolvedText engine text flavour).1.2,
        none⟩] =
      taken [(⟨target, Pattern.ofText text⟩ : Contender).entry engine flavour] := by
  rw [(serves.resolvedText_eq text flavour).1]
  rfl

theorem taken_entryOf (serves : store.Serves engine grammar) (flavour : Flavour) (rule : RuleId) :
    taken (entryOf engine grammar flavour rule store).1.toList =
        taken ((startContender grammar rule).toList.map (Contender.entry engine flavour)) ∧
      (entryOf engine grammar flavour rule store).2.Serves engine grammar := by
  unfold entryOf startContender
  cases (grammar.rule rule).entryPattern with
  | none => exact ⟨rfl, serves⟩
  | some pattern =>
    exact ⟨taken_own serves flavour (.enter rule) pattern, (serves.own_eq pattern flavour).2⟩

/-- The entries of a set are those of its contenders, in the order of the rules. -/
theorem taken_entriesOf (serves : store.Serves engine grammar) (flavour : Flavour)
    (rules : List RuleId) :
    taken (entriesOf engine grammar flavour rules store).1 =
        taken ((rules.filterMap (startContender grammar)).map (Contender.entry engine flavour)) ∧
      (entriesOf engine grammar flavour rules store).2.Serves engine grammar := by
  induction rules generalizing store with
  | nil => exact ⟨rfl, serves⟩
  | cons rule rules ih =>
    obtain ⟨first, kept⟩ := taken_entryOf serves flavour rule
    obtain ⟨rest, served⟩ := ih kept
    refine ⟨?_, served⟩
    have split : (rule :: rules).filterMap (startContender grammar) =
        (startContender grammar rule).toList ++ rules.filterMap (startContender grammar) := by
      cases start : startContender grammar rule with
      | none => simp [List.filterMap_cons_none start]
      | some contender => simp [List.filterMap_cons_some start]
    rw [split, List.map_append, taken_append, ← first, ← rest, ← taken_append]
    rfl

theorem taken_endingEntry (serves : store.Serves engine grammar) (region : RegionRule)
    (key : SetKey) :
    taken [(endingEntry engine region.stop region.stopHasReferences key store).1] =
      taken ((endContender grammar region key.ending).toList.map
        (Contender.entry engine key.flavour)) := by
  unfold endingEntry endContender
  cases key.ending with
  | none =>
    cases region.stopHasReferences <;> exact taken_own serves key.flavour .leave region.stop
  | some text =>
    cases region.stopHasReferences with
    | false => exact taken_own serves key.flavour .leave region.stop
    | true => exact taken_resolvedText serves key.flavour .leave text

/-- The set of a rule holds the contenders of the rule. -/
theorem taken_rebuiltRuleSet (engine : Engine) (grammar : CompiledGrammar) (rule : RuleId)
    (flavour : Flavour) (ending : Option String) :
    taken (rebuiltRuleSet engine grammar ⟨rule, flavour, ending⟩).entries =
      taken ((ruleContenders grammar rule ending).map (Contender.entry engine flavour)) := by
  obtain ⟨inside, serves⟩ := taken_entriesOf (Store.serves_untouched engine grammar) flavour
    (grammar.candidates rule)
  unfold rebuiltRuleSet buildRuleSet ruleContenders
  cases grammar.rule rule with
  | region region =>
    have stop := taken_endingEntry serves region ⟨rule, flavour, ending⟩
    dsimp only at inside stop ⊢
    split
    · rw [List.map_append, taken_append, taken_append, inside, stop]
    · rw [← List.singleton_append, List.map_append, taken_append, taken_append, inside, stop]
  | single | group | block | capture | reserved => exact inside

/-- A pattern that the engine takes is that of a contender. -/
theorem contender_of_taken {searcher : Searcher} {entries : List Entry} {contenders : List Contender} {flavour : Flavour}
    (same : taken entries = taken (contenders.map (Contender.entry engine flavour)))
    (member : entry ∈ entries) (compiled : entry.searcher = some searcher) :
    ∃ contender ∈ contenders, contender.entry engine flavour = entry := by
  have held : entry ∈ taken entries := List.mem_filter.mpr ⟨member, by simp [compiled]⟩
  rw [same] at held
  exact List.mem_map.mp (List.mem_filter.mp held).1

/-- A set is steady if the contenders that it holds are sound. -/
theorem steady_of_taken {entries : List Entry} {contenders : List Contender} {flavour : Flavour}
    (same : taken entries = taken (contenders.map (Contender.entry engine flavour)))
    (sound : ∀ contender ∈ contenders, contender.Sound engine flavour) :
    ∀ entry ∈ entries, entry.Steady := by
  intro entry member remembered searcher compiled
  obtain ⟨contender, contends, rfl⟩ := contender_of_taken same member compiled
  exact (sound contender contends).steady remembered searcher compiled

section Matches

variable (line : SourceLine) (pos : Nat)

theorem matchAfresh_entry (flavour : Flavour) (contender : Contender) :
    (contender.entry engine flavour).matchAfresh line pos =
      contender.matchFrom engine flavour line pos := by
  simp only [Entry.matchAfresh, Entry.searchAfresh, Contender.matchFrom, Option.bind_assoc]
  rfl

/-- What the engine does not take matches nothing. -/
theorem matches_taken (entries : List Entry) :
    (taken entries).filterMap (Entry.matchAfresh line pos) =
      entries.filterMap (Entry.matchAfresh line pos) := by
  rw [taken, List.filterMap_filter]
  congr 1
  funext entry
  cases compiled : entry.searcher with
  | none => simp [Entry.matchAfresh, Entry.searchAfresh, compiled]
  | some searcher => simp

/-- Sets match as the contenders do that they hold. -/
theorem matches_of_taken {entries : List Entry} {contenders : List Contender} {flavour : Flavour}
    (same : taken entries = taken (contenders.map (Contender.entry engine flavour))) :
    entries.filterMap (Entry.matchAfresh line pos) =
      contenders.filterMap (Contender.matchFrom engine flavour line pos) := by
  rw [← matches_taken, same, matches_taken, List.filterMap_map]
  exact List.filterMap_congr fun contender _ => matchAfresh_entry line pos flavour contender

variable {line pos} in
theorem Contender.Sound.bounds {flavour : Flavour} {contender : Contender}
    (sound : contender.Sound engine flavour)
    (seen : contender.matchFrom engine flavour line pos = some found) :
    pos ≤ found.start ∧ found.start ≤ found.stop ∧ found.stop ≤ line.byteSize := by
  obtain ⟨searcher, compiled, seen⟩ := Option.bind_eq_some_iff.mp seen
  obtain ⟨spans, searched, made⟩ := Option.bind_eq_some_iff.mp seen
  obtain ⟨span, whole, rfl⟩ := Option.map_eq_some_iff.mp made
  exact sound.inside searcher compiled line pos spans span searched whole

/-- With sound contenders, the set of a rule finds the first of the earliest. -/
theorem findAfresh_rebuiltRuleSet {rule : RuleId} {flavour : Flavour} {ending : Option String}
    (sound : ∀ contender ∈ ruleContenders grammar rule ending, contender.Sound engine flavour) :
    (rebuiltRuleSet engine grammar ⟨rule, flavour, ending⟩).findAfresh line pos =
      earliest ((ruleContenders grammar rule ending).filterMap
        (Contender.matchFrom engine flavour line pos)) := by
  have same := taken_rebuiltRuleSet engine grammar rule flavour ending
  rw [PatternSet.findAfresh, PatternSet.bestAfresh_eq, matches_of_taken line pos same]
  · rfl
  · intro entry member found seen
    obtain ⟨spans, searched, made⟩ := Option.bind_eq_some_iff.mp seen
    obtain ⟨searcher, compiled, searched⟩ := Option.bind_eq_some_iff.mp searched
    obtain ⟨contender, contends, rfl⟩ := contender_of_taken same member compiled
    rw [matchAfresh_entry] at seen
    exact ((sound contender contends).bounds seen).1

end Matches
end Sets

section Injections

variable {engine : Engine} {grammar : CompiledGrammar} {line : SourceLine} {pos : Nat}
  {flavour : Flavour} {scopes : List String}

/-- The matches that injections offer whose condition holds. -/
def offered (engine : Engine) (grammar : CompiledGrammar) (line : SourceLine) (pos : Nat)
    (flavour : Flavour) (scopes : List String) (injections : List Injection) : List Match :=
  ((injections.filter fun injection => injection.matcher.holds scopes).flatMap fun injection =>
    ruleContenders grammar injection.rule none).filterMap
      (Contender.matchFrom engine flavour line pos)

theorem offered_cons (injection : Injection) (injections : List Injection) :
    offered engine grammar line pos flavour scopes (injection :: injections) =
      (if injection.matcher.holds scopes then (ruleContenders grammar injection.rule none).filterMap
        (Contender.matchFrom engine flavour line pos) else []) ++
        offered engine grammar line pos flavour scopes injections := by
  unfold offered
  split
  next holds => simp [holds]
  next fails => simp [fails]

theorem offered_append (front back : List Injection) :
    offered engine grammar line pos flavour scopes (front ++ back) =
      offered engine grammar line pos flavour scopes front ++
        offered engine grammar line pos flavour scopes back := by
  simp [offered]

/-- The contenders of injections whose condition holds are sound. -/
def SoundInjections (engine : Engine) (grammar : CompiledGrammar) (flavour : Flavour)
    (scopes : List String) (injections : List Injection) : Prop :=
  ∀ injection ∈ injections, injection.matcher.holds scopes = true →
    ∀ contender ∈ ruleContenders grammar injection.rule none, contender.Sound engine flavour

/-- The best so far, unless a match starts before it. A new best is marked. -/
def markBest (mark : Bool) (best : Option (Bool × Match)) : Option Match → Option (Bool × Match)
  | none => best
  | some found => if better (best.map Prod.snd) found then some (mark, found) else best

/-- Marking the first of two matches is marking both, one after the other. -/
theorem markBest_earlier (mark : Bool) (best : Option (Bool × Match)) (first second : Option Match) :
    markBest mark best (earlier first second) = markBest mark (markBest mark best first) second := by
  cases first with
  | none => rfl
  | some first =>
    cases second with
    | none => rw [earlier_none]; rfl
    | some second =>
      cases best with
      | none =>
        by_cases early : second.start < first.start <;> simp [earlier, markBest, better, early]
      | some best =>
        obtain ⟨flag, best⟩ := best
        by_cases early : second.start < first.start <;> by_cases wins : first.start < best.start <;>
          by_cases last : second.start < best.start <;>
          simp [earlier, markBest, better, early, wins, last] <;> omega

/-- A match at the byte where the search starts stays the best. -/
theorem injectedAfresh_settled {best : Match} (here : best.start = pos) (mark : Bool)
    (sound : SoundInjections engine grammar flavour scopes injections) :
    injectedAfresh engine grammar line pos flavour scopes (some (mark, best)) injections =
      some (mark, best) := by
  induction injections with
  | nil => rfl
  | cons injection injections ih =>
    obtain ⟨first, others⟩ := List.forall_mem_cons.mp sound
    rw [injectedAfresh, ih others]
    split
    next holds =>
      rw [findAfresh_rebuiltRuleSet line pos (first holds)]
      cases own : earliest ((ruleContenders grammar injection.rule none).filterMap
          (Contender.matchFrom engine flavour line pos)) with
      | none => simp
      | some found =>
        obtain ⟨contender, contends, seen⟩ := List.mem_filterMap.mp (mem_of_earliest own)
        have behind : ¬ found.start < best.start :=
          Nat.not_lt.mpr (here ▸ ((first holds contender contends).bounds seen).1)
        simp [Option.filter_some, better, behind]
    next => rfl

/-- Injections in two parts: the second goes on with the best of the first. -/
theorem injectedAfresh_append (best : Option (Bool × Match)) (front : List Injection)
    (sound : SoundInjections engine grammar flavour scopes back) :
    injectedAfresh engine grammar line pos flavour scopes best (front ++ back) =
      injectedAfresh engine grammar line pos flavour scopes
        (injectedAfresh engine grammar line pos flavour scopes best front) back := by
  induction front generalizing best with
  | nil => rfl
  | cons injection front ih =>
    rw [List.cons_append, injectedAfresh, injectedAfresh]
    split
    next =>
      split
      next => exact ih best
      next found _ =>
        dsimp only
        split
        next here => exact (injectedAfresh_settled here _ sound).symm
        next => exact ih _
    next => exact ih best

/-- The best of injections that all come before the rule at the top, or all after it. -/
theorem injectedAfresh_uniform {mark : Bool}
    (uniform : ∀ injection ∈ injections, decide (injection.priority = .left) = mark)
    (sound : SoundInjections engine grammar flavour scopes injections) (best : Option (Bool × Match)) :
    injectedAfresh engine grammar line pos flavour scopes best injections =
      markBest mark best (earliest (offered engine grammar line pos flavour scopes injections)) := by
  induction injections generalizing best with
  | nil => rfl
  | cons injection injections ih =>
    obtain ⟨first, others⟩ := List.forall_mem_cons.mp sound
    have ih := ih (fun other member => uniform other (List.mem_cons_of_mem _ member)) others
    rw [injectedAfresh, offered_cons, uniform injection List.mem_cons_self]
    split
    next holds =>
      rw [findAfresh_rebuiltRuleSet line pos (first holds), earliest_append, markBest_earlier]
      generalize earliest ((ruleContenders grammar injection.rule none).filterMap
        (Contender.matchFrom engine flavour line pos)) = own
      cases own with
      | none => exact ih best
      | some found =>
        rw [Option.filter_some, markBest]
        by_cases wins : better (best.map Prod.snd) found = true
        · simp only [wins, if_true]
          split
          next here =>
            rw [← ih, injectedAfresh_settled here _ others]
          next => exact ih _
        · simp only [wins, Bool.false_eq_true, if_false]
          exact ih best
    next => exact ih best

/-- The rule at the top stands between the injections that come before it and the others. -/
theorem choose_markBest (own left other : Option Match) :
    choose own (markBest false (markBest true none left) other) = earlier (earlier left own) other := by
  cases left with
  | none =>
    cases other with
    | none => cases own <;> rfl
    | some other =>
      cases own with
      | none => rfl
      | some own => simp [markBest, better, choose, earlier]
  | some left =>
    cases other with
    | none =>
      cases own with
      | none => rfl
      | some own =>
        by_cases early : own.start < left.start
        · simp [markBest, better, choose, earlier, early]
          omega
        · simp [markBest, better, choose, earlier, early]
          omega
    | some other =>
      cases own with
      | none =>
        by_cases early : other.start < left.start <;>
          simp [markBest, better, choose, earlier, early]
      | some own =>
        by_cases first : own.start < left.start <;> by_cases second : other.start < left.start <;>
          by_cases third : other.start < own.start <;>
          simp [markBest, better, choose, earlier, first, second, third] <;> omega

end Injections

section Priorities

theorem withPriority_cons (priority : Priority) (injection : Injection)
    (injections : List Injection) :
    withPriority priority (injection :: injections) =
      if injection.priority = priority then injection :: withPriority priority injections
      else withPriority priority injections := by
  simp [withPriority, List.filter_cons]

/-- Sorting keeps the injections with one priority in order. -/
theorem withPriority_sortInjections (priority : Priority) (injections : List Injection) :
    withPriority priority (sortInjections injections) = withPriority priority injections := by
  have alike : (withPriority priority injections).Pairwise fun left right =>
      decide (left.priority.rank ≤ right.priority.rank) = true := by
    apply List.pairwise_of_forall_mem_list
    intro left member right also
    rw [of_decide_eq_true (List.mem_filter.mp member).2, of_decide_eq_true (List.mem_filter.mp also).2]
    simp
  have kept : (withPriority priority injections).Sublist (sortInjections injections) :=
    List.sublist_mergeSort (fun _ _ _ first second => by simp at *; omega)
      (fun _ _ => by simp; omega) alike List.filter_sublist
  have sublist := kept.filter fun injection => decide (injection.priority = priority)
  have idle : (withPriority priority injections).filter
      (fun injection => decide (injection.priority = priority)) = withPriority priority injections := by
    simp [withPriority]
  rw [idle] at sublist
  refine (sublist.eq_of_length ?_).symm
  exact ((List.mergeSort_perm injections _).filter _).length_eq.symm

/-- A list sorted by priority consists of the parts with one priority. -/
theorem eq_of_sorted {injections : List Injection}
    (sorted : injections.Pairwise fun left right => left.priority.rank ≤ right.priority.rank) :
    injections = withPriority .left injections ++
      (withPriority .default injections ++ withPriority .right injections) := by
  induction sorted with
  | nil => rfl
  | @cons injection injections least _ ih =>
    have none_of_lt (priority : Priority) (less : priority.rank < injection.priority.rank) :
        withPriority priority injections = [] := by
      apply List.filter_eq_nil_iff.mpr
      intro other member same
      have bound := least other member
      rw [of_decide_eq_true same] at bound
      omega
    cases own : injection.priority with
    | left => simpa [withPriority_cons, own] using ih
    | default =>
      have lefts := none_of_lt .left (by simp [own, Priority.rank])
      simpa [withPriority_cons, own, lefts] using ih
    | right =>
      have lefts := none_of_lt .left (by simp [own, Priority.rank])
      have defaults := none_of_lt .default (by simp [own, Priority.rank])
      simpa [withPriority_cons, own, lefts, defaults] using ih

/-- Sorting by priority takes the injections with one priority after those with the other,
and each as they are declared. -/
theorem sortInjections_eq (injections : List Injection) :
    sortInjections injections = withPriority .left injections ++
      (withPriority .default injections ++ withPriority .right injections) := by
  have sorted : (sortInjections injections).Pairwise fun left right =>
      left.priority.rank ≤ right.priority.rank := by
    refine (List.pairwise_mergeSort ?_ ?_ injections).imp fun holds => of_decide_eq_true holds
    · intro _ _ _ first second
      simp at *
      omega
    · intro _ _
      simp
      omega
  rw [eq_of_sorted sorted]
  simp only [withPriority_sortInjections]

end Priorities

section Next

variable {engine : Engine} {grammar : CompiledGrammar} {flavour : Flavour} {stack : Stack}
  (sorted : grammar.injections = sortInjections declared)
  (sound : ∀ contender ∈ contenders grammar declared stack, contender.Sound engine flavour)
include sorted sound

/-- The injections of the grammar are sound, so the theorem applies to it. -/
theorem soundInjections :
    SoundInjections engine grammar flavour stack.contentScopes.names grammar.injections := by
  intro injection member holds contender contends
  apply sound
  have among : injection ∈ declared := by
    rw [sorted] at member
    exact (List.mergeSort_perm declared _).mem_iff.mp member
  have offered : contender ∈ injectedContenders grammar declared stack.contentScopes.names
      injection.priority :=
    List.mem_flatMap.mpr ⟨injection, List.mem_filter.mpr
      ⟨List.mem_filter.mpr ⟨among, by simp⟩, holds⟩, contends⟩
  cases priority : injection.priority <;> rw [priority] at offered <;> simp [contenders, offered]

omit sorted in
theorem soundRule : ∀ contender ∈ ruleContenders grammar stack.top.rule stack.top.ending,
    contender.Sound engine flavour := by
  intro contender member
  exact sound contender (by simp [contenders, member])

/-- The sets that are asked hold contenders for the stack. -/
theorem steady_of_asks (asks : Asks grammar flavour stack key) :
    ∀ entry ∈ (rebuiltRuleSet engine grammar key).entries, entry.Steady := by
  cases asks with
  | own => exact steady_of_taken (taken_rebuiltRuleSet ..) (soundRule sound)
  | injected member holds =>
    exact steady_of_taken (taken_rebuiltRuleSet ..) (soundInjections sorted sound _ member holds)

/-- Without memos, what matches next is the first of the earliest matches of all contenders. -/
theorem nextAfresh_eq (line : SourceLine) (pos : Nat) :
    nextAfresh engine grammar line pos flavour stack =
      earliest ((contenders grammar declared stack).filterMap
        (Contender.matchFrom engine flavour line pos)) := by
  have chosen : nextAfresh engine grammar line pos flavour stack =
      choose ((rebuiltRuleSet engine grammar ⟨stack.top.rule, flavour, stack.top.ending⟩).findAfresh
          line pos)
        (injectedAfresh engine grammar line pos flavour stack.contentScopes.names none
          grammar.injections) := by
    unfold nextAfresh
    split
    next empty =>
      rw [List.isEmpty_iff.mp empty]
      rfl
    next => rfl
  have lefts : ∀ injection ∈ withPriority .left declared,
      decide (injection.priority = .left) = true :=
    fun injection member => (List.mem_filter.mp member).2
  have others : ∀ injection ∈ withPriority .default declared ++ withPriority .right declared,
      decide (injection.priority = .left) = false := by
    intro injection member
    rcases List.mem_append.mp member with member | member <;>
      simp [of_decide_eq_true (List.mem_filter.mp member).2]
  have injected := soundInjections sorted sound
  rw [sorted, sortInjections_eq] at injected
  obtain ⟨first, second⟩ := List.forall_mem_append.mp injected
  rw [chosen, findAfresh_rebuiltRuleSet line pos (soundRule sound), sorted, sortInjections_eq,
    injectedAfresh_append _ _ second, injectedAfresh_uniform lefts first,
    injectedAfresh_uniform others second, choose_markBest, offered_append, earliest_append,
    ← earlier_assoc]
  simp only [contenders, List.filterMap_append, earliest_append]
  rfl

end Next

/-- With sound contenders, what matches next is the first of their earliest matches, whatever has been
remembered. -/
theorem Workspace.Faithful.findNext_earliest {engine : Engine} {grammar : CompiledGrammar}
    {workspace : Workspace} {stack : Stack}
    (faithful : workspace.Faithful engine grammar known count) (member : line ∈ known)
    (sorted : grammar.injections = sortInjections declared)
    (sound : ∀ contender ∈ contenders grammar declared stack, contender.Sound engine flavour)
    (pos : Nat) :
    (Line.findNext engine grammar line pos flavour stack workspace).1 =
      earliest ((contenders grammar declared stack).filterMap
        (Contender.matchFrom engine flavour line pos)) := by
  rw [← nextAfresh_eq sorted sound]
  exact faithful.findNext_afresh member pos flavour stack
    fun key asks _ => steady_of_asks sorted sound asks

end Line

/-- Which match wins, for every compiled grammar, line, byte and stack, and whatever has
been remembered so far. Injections are tried in the order in which they are declared: those
of the grammar's table by their selectors, and then those of the grammars injected into it.
Of all contenders the one wins whose match from the byte starts first, the first in the list
if there are several; there is no match only if no contender has one. The contenders have to
be sound. -/
theorem next_match_comes_first (course : Course) {compilation : Compilation}
    (found : course.grammars.get? scopeName = some course.base)
    (compiles : (compile scopeName course.grammars course.injectors course.engine journal).1 =
      .ok compilation)
    {workspace : Line.Workspace}
    (faithful : workspace.Faithful course.engine compilation.grammar known count)
    {line : SourceLine} (member : line ∈ known) (pos : Nat) (flavour : Flavour) (stack : Stack) :
    let declared := course.declaredInjections (course.finalState scopeName journal)
    let contenders := Line.contenders compilation.grammar declared stack
    (∀ contender ∈ contenders, contender.Sound course.engine flavour) →
      let result := (Line.findNext course.engine compilation.grammar line pos flavour stack
        workspace).1
      Line.ComesFirst (Line.Contender.matchFrom course.engine flavour line pos) contenders result ∧
        ∀ winner, result = some winner → pos ≤ winner.start := by
  intro declared contenders sound result
  have completes := Course.completes found compiles
  have same : result = Line.earliest (contenders.filterMap
      (Line.Contender.matchFrom course.engine flavour line pos)) :=
    faithful.findNext_earliest member completes.injections sound pos
  refine ⟨same ▸ Line.comesFirst_earliest _ _, fun winner wins => ?_⟩
  rw [same] at wins
  obtain ⟨contender, contends, seen⟩ := List.mem_filterMap.mp (Line.mem_of_earliest wins)
  exact ((sound contender contends).bounds seen).1

namespace Ties

/-- A grammar all of whose patterns match the same: the end of a region, a rule inside it,
and injections with every priority. -/
def source : GrammarSource where
  scopeName := "source.w"
  patterns := [1]
  injections := some ⟨[("L:source.w", 3), ("R:source.w", 5), ("source.w", 7)]⟩
  rules := #[{ matchPattern := some "a" },
    { beginPattern := some "\\(", endPattern := some "a", patterns := some [0] },
    { matchPattern := some "a" }, { patterns := some [2] },
    { matchPattern := some "a" }, { patterns := some [4] },
    { matchPattern := some "a" }, { patterns := some [6] }]

def course : Course := ⟨⟨[("source.w", source)]⟩, source, [], backtracking⟩

@[irreducible]
def compilation : Compilation :=
  (compile "source.w" course.grammars [] backtracking {}).1.toOption.get (by decide +kernel)

def stack : Stack :=
  .root 1 (.ofGrammar (({ serial := 0, rulesSerial := 1, grammar := compilation.grammar } :
    Tokenizer).styling .plain) "source.w")

theorem compiles : (compile "source.w" course.grammars [] backtracking {}).1 = .ok compilation :=
  eq_ok_of_toOption (by rw [compilation, Option.some_get])

end Ties

/-- All contenders match at the same byte. The search is made from a workspace in which a
search from an earlier byte is remembered. -/
theorem next_match_comes_first_ties :
    let declared := Ties.course.declaredInjections (Ties.course.finalState "source.w" {})
    let contenders := Line.contenders Ties.compilation.grammar declared Ties.stack
    let line := Tokenizer.lineOf "bba"
    let workspace := (Line.findNext backtracking Ties.compilation.grammar line 0 .both Ties.stack
      { store := { patterns := Ties.compilation.patterns } }).2
    contenders.map Line.Contender.target = [.enter 4, .leave, .enter 2, .enter 8, .enter 6] ∧
      (compile "source.w" Ties.course.grammars [] backtracking {}).1 = .ok Ties.compilation ∧
      (∀ contender ∈ contenders, contender.Sound backtracking .both) ∧
      workspace.Faithful backtracking Ties.compilation.grammar [line] 1 ∧
      Line.ComesFirst (Line.Contender.matchFrom backtracking .both line 1) contenders
        (Line.findNext backtracking Ties.compilation.grammar line 1 .both Ties.stack workspace).1 := by
  intro declared contenders line workspace
  have used : InUse backtracking Ties.compilation.grammar { patterns := Ties.compilation.patterns } :=
    .compiled Ties.compiles rfl {}
  have faithful : workspace.Faithful backtracking Ties.compilation.grammar [line] 1 :=
    (Line.Workspace.Faithful.start used.serves Nat.zero_lt_one).findNext (List.mem_singleton_self _) 0
      .both Ties.stack
  have patterns : ∀ contender ∈ contenders, contender.pattern = { source := "a" } := by
    decide +kernel
  have sound (contender : Line.Contender) (member : contender ∈ contenders) :
      contender.Sound backtracking .both :=
    .of_spelled readsText_backtracking (patterns contender member) (by decide) .both
  exact ⟨by decide +kernel, Ties.compiles, sound, faithful,
    (next_match_comes_first Ties.course rfl Ties.compiles faithful (List.mem_singleton_self _) 1 .both
      Ties.stack sound).1⟩

namespace ShiftedStart

/-- A grammar with a pattern whose matches start behind the `a` that they need. -/
def source : GrammarSource where
  scopeName := "source.x"
  patterns := [0, 1]
  rules := #[{ matchPattern := some "a\\Kb", name := some "second" },
    { matchPattern := some "a", name := some "first" }]

def course : Course := ⟨⟨[("source.x", source)]⟩, source, [], backtracking⟩

@[irreducible]
def compilation : Compilation :=
  (compile "source.x" course.grammars [] backtracking {}).1.toOption.get (by decide +kernel)

def tokenizer : Tokenizer := { serial := 0, rulesSerial := 1, grammar := compilation.grammar }

/-- The store of the grammar before the first line. -/
def store : Store := { patterns := compilation.patterns }

theorem compiles : (compile "source.x" course.grammars [] backtracking {}).1 = .ok compilation :=
  eq_ok_of_toOption (by rw [compilation, Option.some_get])

end ShiftedStart

/-- A match that starts behind what it needs is remembered for searches that start behind that, too. On
the line `aab` the first pattern is found to match the `b` from the second `a`. The search from the `b`
takes that match, though from there no contender matches anything. -/
theorem shifted_start_is_remembered :
    let declared := ShiftedStart.course.declaredInjections (ShiftedStart.course.finalState "source.x" {})
    let stack := ShiftedStart.tokenizer.initialState .plain
    let contenders := Line.contenders ShiftedStart.compilation.grammar declared stack
    let line := Tokenizer.lineOf "aab"
    let workspace := (Line.findNext backtracking ShiftedStart.compilation.grammar line 1 .neither stack
      { store := ShiftedStart.store }).2
    let result := (Line.findNext backtracking ShiftedStart.compilation.grammar line 2 .neither stack
      workspace).1
    (compile "source.x" ShiftedStart.course.grammars [] backtracking {}).1 =
        .ok ShiftedStart.compilation ∧
      workspace.Faithful backtracking ShiftedStart.compilation.grammar [line] 1 ∧
      result = some ⟨.enter 1, 2, 3, #[some ⟨2, 3⟩]⟩ ∧
      (∀ contender ∈ contenders, contender.matchFrom backtracking .neither line 2 = none) ∧
      ¬ Line.ComesFirst (Line.Contender.matchFrom backtracking .neither line 2) contenders result ∧
      (ShiftedStart.tokenizer.scanLine backtracking .plain none "aab" (fun _ => false)
          ShiftedStart.store).1.tokens =
        [⟨0, 1, ["source.x", "first"]⟩, ⟨1, 2, ["source.x", "first"]⟩,
          ⟨2, 3, ["source.x", "second"]⟩] := by
  intro declared stack contenders line workspace result
  have used : InUse backtracking ShiftedStart.compilation.grammar ShiftedStart.store :=
    .compiled ShiftedStart.compiles rfl {}
  have faithful : workspace.Faithful backtracking ShiftedStart.compilation.grammar [line] 1 :=
    (Line.Workspace.Faithful.start used.serves Nat.zero_lt_one).findNext (List.mem_singleton_self _) 1
      .neither stack
  have found : result = some ⟨.enter 1, 2, 3, #[some ⟨2, 3⟩]⟩ := by decide +kernel
  have nothing : ∀ contender ∈ contenders,
      contender.matchFrom backtracking .neither line 2 = none := by decide +kernel
  refine ⟨ShiftedStart.compiles, faithful, found, nothing, ?_, by decide +kernel⟩
  rw [found]
  rintro ⟨before, winner, after, parts, wins, -⟩
  have none := nothing winner (by simp [parts])
  cases none.symm.trans wins

end ScopeLexer

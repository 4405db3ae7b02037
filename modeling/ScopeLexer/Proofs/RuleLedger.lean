import ScopeLexer.Proofs.CompilerLedger

/-! Rules and their records. Each function of the compiler keeps the books once its
recursive calls do: what it gives is what the source says, with the numbers of what the
source leads to. What has no number yet is given one and entered, and its rule is put
under it when all that it holds is compiled; so by induction on the depth, whatever a
compilation gives a number to is recorded when it is over. -/
namespace ScopeLexer

open Pattern Regex

namespace Grammar.Course

variable {course : Course} {before after state : CompilerState} {context : Context}
  {place : Option Place}

/-- Recursive calls give the number of what they are asked for. -/
def Recursive (course : Course) (recurse : Recurse) : Prop :=
  ∀ context place state, course.Visits context place →
    course.Runs state (recurse context place) fun after id =>
      after.numberOf (context, place) = some id

section Rules

variable {recurse : Recurse} (recursive : course.Recursive recurse)

/-- A rule for a group is put under the next number. -/
theorem runs_slot (group : Nat) {number : Place} {rule : CaptureRule}
    (captures : Captures state context number rule) :
    course.Runs state
      (do
        let id ← reserve
        define id (.capture rule)
        return (group, id))
      fun after slot => Slotted after context (group, number) slot := by
  have kept : ∀ id < state.rules.size,
      (state.rules.push (.capture rule))[id]? = state.rules[id]? := by
    intro id below
    rw [Array.getElem?_push_lt below, Array.getElem?_eq_getElem below]
  have slotted := captures.carry (.push state (.capture rule))
  unfold Runs
  rw [run_define_next]
  refine ⟨⟨by simp, kept, fun _ _ given => given, fun _ _ held => held,
    fun _ _ given => .inl given, fun id above below => .inr ?_,
    fun distinct => distinct.mono rfl (by simp)⟩, rfl, rule, Array.getElem?_push_size, slotted⟩
  have last : id = state.rules.size := by
    simp only [Array.size_push] at below
    omega
  subst last
  refine ⟨rule, Array.getElem?_push_size, fun inner member => ?_⟩
  cases slotted with
  | plain => cases member
  | again within numbered =>
    cases member
    exact ⟨_, numbered⟩

include recursive

/-- The tables of rules for groups are filled as they are written. -/
theorem runs_compileCaptures {captures : Option (Table Place)}
    (visits : ∀ number ∈ (captures.map Table.values).getD [], course.Visits context (some number)) :
    course.Runs state (compileCaptures recurse context captures) fun after table =>
      Tabled after context captures table := by
  unfold compileCaptures
  apply runs_bind (runs_makeRoom _)
  rintro state room _ rfl
  apply runs_bind (runs_mapM (R := fun after entry slot => Slotted after context entry slot)
    (fun _ _ _ _ carries slotted => slotted.carry carries) ?_ state)
  · intro middle slots _ slotted
    exact runs_pure (.filled slotted)
  · rintro ⟨group, number⟩ member state
    have visited := visits number (RuleSource.place_of_mem_groups member)
    dsimp only
    split
    next within =>
      apply runs_bind (runs_map some (recursive context (some number) state visited)
        (Q := fun after retokenize => ∃ id, retokenize = some id ∧
          after.numberOf (context, some number) = some id) fun _ id numbered => ⟨id, rfl, numbered⟩)
      rintro middle _ _ ⟨id, rfl, numbered⟩
      exact runs_slot group (.again within numbered)
    next without =>
      apply runs_bind (runs_pure (P := fun _ retokenize => retokenize = none) rfl)
      rintro middle _ _ rfl
      exact runs_slot group (.plain (by simpa using without))

/-- A reference gets the number of what it leads to, and none if it leads nowhere. -/
theorem runs_compileReference (text : String)
    (visits : ∀ node, course.grammars.target context (.ofText text) = some node →
      course.Visits node.1 node.2) :
    course.Runs state (compileReference recurse course.grammars context text)
      fun after resolved => Option.Rel (fun node id => after.numberOf node = some id)
        (course.grammars.target context (.ofText text)) resolved := by
  rw [compileReference_eq]
  cases found : course.grammars.target context (.ofText text) with
  | none =>
    apply runs_bind (runs_pure (P := fun _ resolved => resolved = none) rfl)
    rintro middle _ _ rfl
    exact runs_bind (runs_warn _) fun _ _ _ _ => runs_pure .none
  | some node =>
    apply runs_bind (runs_map some (recursive node.1 node.2 state (visits node found))
      (Q := fun after resolved => ∃ id, resolved = some id ∧ after.numberOf node = some id)
      fun _ id numbered => ⟨id, rfl, numbered⟩)
    rintro middle _ _ ⟨id, rfl, numbered⟩
    exact runs_pure (.some numbered)

/-- A list gets the numbers of what its items lead to, and is marked if some lead nowhere. -/
theorem runs_compilePatterns {places : List Place}
    (visits : ∀ place ∈ places, ∀ node, course.grammars.held context place = some node →
      course.Visits node.1 node.2) :
    course.Runs state (compilePatterns recurse course.grammars context places)
      fun after compiled => ∃ ids, compiled = (ids, decide (ids.length ≠ places.length)) ∧
        Listed course.grammars after context places ids := by
  unfold compilePatterns
  apply runs_bind (P := fun after ids => Listed course.grammars after context places ids)
  · induction places generalizing state with
    | nil => exact runs_pure .nil
    | cons place places ih =>
      rw [List.filterMapM_cons]
      have rest (state : CompilerState) : course.Runs state (places.filterMapM _)
          fun after ids => Listed course.grammars after context places ids :=
        ih fun other member => visits other (List.mem_cons_of_mem _ member)
      -- Whatever comes after it, a rule is put before it or left out.
      apply runs_bind (P := fun after (kept : Option RuleId) => ∀ later ids, Carries after later →
        Listed course.grammars later context places ids →
        Listed course.grammars later context (place :: places) (kept.toList ++ ids))
      · have filtered (middle : CompilerState) (resolved : Option RuleId)
            (reached : Option.Rel (fun node id => middle.numberOf node = some id)
              (course.grammars.held context place) resolved) :
            course.Runs middle
              (do
                let rules := (← get).rules
                return resolved.filter fun id => !(rules[id]?.getD .reserved).isHollow)
              fun after kept => ∀ later ids, Carries after later →
                Listed course.grammars later context places ids →
                Listed course.grammars later context (place :: places) (kept.toList ++ ids) :=
          runs_get (runs_pure fun _ _ carries listed => .cons reached carries listed)
        have leads := visits place List.mem_cons_self
        dsimp only
        cases reference : (context.grammar.rule place).reference with
        | some text =>
          have held : course.grammars.held context place =
              course.grammars.target context (.ofText text) := by rw [Loaded.held, reference]
          rw [held] at leads filtered
          exact runs_bind (runs_compileReference recursive text leads)
            fun middle resolved _ reached => filtered middle resolved reached
        | none =>
          have held : course.grammars.held context place = some (context, some place) := by
            rw [Loaded.held, reference]
          rw [held] at leads filtered
          exact runs_bind (runs_map some (recursive context (some place) state (leads _ rfl))
            fun _ _ numbered => .some numbered) fun middle resolved _ reached =>
              filtered middle resolved reached
      · intro middle kept _ joins
        cases kept with
        | none =>
          exact (rest middle).weaken fun after ids extended listed =>
            joins after ids extended.carries listed
        | some id =>
          apply runs_bind (rest middle)
          intro last ids extended listed
          exact runs_pure (joins last ids extended.carries listed)
  · intro middle ids _ listed
    exact runs_pure ⟨ids, rfl, listed⟩

omit recursive in
/-- A rule that is being compiled has its number. -/
structure Entered (course : Course) (state : CompilerState) (context : Context) (number : Place)
    (source : RuleSource) : Prop where
  visits : course.Visits context (some number)
  source : context.grammar.rule number = source
  numbered : (state.numberOf (context, some number)).isSome

omit recursive in
theorem Entered.later {number : Place} {source : RuleSource}
    (entered : course.Entered before context number source)
    (extended : course.Extends before after) : course.Entered after context number source where
  visits := entered.visits
  source := entered.source
  numbered := by
    obtain ⟨id, given⟩ := Option.isSome_iff_exists.mp entered.numbered
    rw [extended.carries.numberOf given]
    rfl

variable {number : Place} {source : RuleSource}

omit recursive in
/-- A pattern that the rule being compiled needs as it is written, or resolved. -/
theorem Entered.runs_addPattern (entered : course.Entered state context number source)
    {resolvedLater : Bool}
    (member : (resolvedLater && (Pattern.ofText text).hasReferences) = false →
      text ∈ source.checkedPatterns) :
    course.Runs state (addPattern course.engine text resolvedLater) fun after id =>
      after.Keeps id text ∧ ((resolvedLater && (Pattern.ofText text).hasReferences) = false →
        course.engine.Accepts text) := by
  refine Course.runs_addPattern entered.visits entered.numbered fun needed => ?_
  rw [Context.checkedPatterns, entered.source]
  exact member needed

theorem Entered.runs_captures (entered : course.Entered state context number source)
    {captures : Option (Table Place)} (own : captures ∈ source.captureTables) :
    course.Runs state (compileCaptures recurse (context.inside source.repository) captures)
      fun after table => Tabled after (context.inside source.repository) captures table := by
  refine runs_compileCaptures recursive fun inner member => ?_
  rw [← entered.source] at own ⊢
  exact entered.visits.captured (List.mem_flatMap.mpr ⟨captures, own, member⟩)

theorem Entered.runs_patterns (entered : course.Entered state context number source)
    (noMatch : source.matchPattern = none) :
    course.Runs state (compilePatterns recurse course.grammars (context.inside source.repository)
      (source.patterns.getD []))
      fun after compiled => ∃ ids,
        compiled = (ids, decide (ids.length ≠ (source.patterns.getD []).length)) ∧
        Listed course.grammars after (context.inside source.repository) (source.patterns.getD [])
          ids := by
  refine runs_compilePatterns recursive fun inner member node found => ?_
  have tried : inner ∈ source.triedPlaces := by simpa [RuleSource.triedPlaces, noMatch] using member
  rw [← entered.source] at tried found
  exact entered.visits.tried tried found

/-- The end or the condition of a rule, with all that the rule holds. What becomes of it
is put together by the last argument. -/
theorem Entered.runs_ending (entered : course.Entered state context number source)
    (noMatch : source.matchPattern = none) (text : String)
    (needed : (Pattern.ofText text).hasReferences = false → text ∈ source.checkedPatterns)
    {captures : Option (Table Place)} (own : captures ∈ source.captureTables)
    (build : PatternId → CaptureTable → List RuleId × Bool → Bool → Rule) :
    course.Runs state
      (do
        let ending ← addPattern course.engine text true
        let captures ← compileCaptures recurse (context.inside source.repository) captures
        let compiled ← compilePatterns recurse course.grammars (context.inside source.repository)
          (source.patterns.getD [])
        let answer ← (do return ((← get).patterns[ending]?).any (·.pattern.hasReferences))
        return build ending captures compiled answer)
      fun after rule => ∃ id table ids,
        rule = build id table (ids, decide (ids.length ≠ (source.patterns.getD []).length))
          (Pattern.ofText text).hasReferences ∧
        after.Keeps id text ∧ Tabled after (context.inside source.repository) captures table ∧
        Listed course.grammars after (context.inside source.repository) (source.patterns.getD []) ids ∧
        ((Pattern.ofText text).hasReferences = false → course.engine.Accepts text) := by
  apply runs_bind (entered.runs_addPattern (by simpa using needed))
  rintro added id fromState ⟨keeps, accepts⟩
  have entered := entered.later fromState
  apply runs_bind (entered.runs_captures recursive own)
  intro captured table fromAdded tabled
  apply runs_bind ((entered.later fromAdded).runs_patterns recursive noMatch)
  rintro held _ fromCaptured ⟨ids, rfl, listed⟩
  have keeps := fromCaptured.carries.keeps (fromAdded.carries.keeps keeps)
  apply runs_bind (P := fun after answer => after = held ∧ answer = (Pattern.ofText text).hasReferences)
  · apply runs_get
    obtain ⟨cached, found, same⟩ := keeps
    exact runs_pure ⟨rfl, by simp [found, same]⟩
  rintro _ _ _ ⟨rfl, rfl⟩
  exact runs_pure ⟨id, table, ids, rfl, keeps, tabled.carry fromCaptured.carries, listed,
    by simpa using accepts⟩

/-- What the compilation of a rule comes to. -/
def Finishes (course : Course) (context : Context) (source : RuleSource) (after : CompilerState)
    (rule : Rule) : Prop :=
  Spelled course.grammars after (context.inside source.repository) source rule ∧
    ∀ text ∈ source.checkedPatterns, course.engine.Accepts text

/-- A rule with a start is finished as it is written. -/
theorem Entered.runs_compileSpanning (entered : course.Entered state context number source)
    (noMatch : source.matchPattern = none) (isStart : source.beginPattern = some text) :
    course.Runs state (compileSpanning recurse course.grammars course.engine
      (context.inside source.repository) source text) (course.Finishes context source) := by
  have either {own : Option (Table Place)} (among : own ∈ source.captureTables) :
      (own.orElse fun _ => source.captures) ∈ source.captureTables := by
    cases own with
    | none => simp [RuleSource.captureTables]
    | some table => exact among
  have checked : source.checkedPatterns = text ::
      if (Pattern.ofText source.closing).hasReferences then [] else [source.closing] := by
    simp [RuleSource.checkedPatterns, noMatch, isStart]
  have closes (unresolved : (Pattern.ofText source.closing).hasReferences = false) :
      source.closing ∈ source.checkedPatterns := by simp [checked, unresolved]
  have accepted (start : course.engine.Accepts text)
      (closing : (Pattern.ofText source.closing).hasReferences = false →
        course.engine.Accepts source.closing) :
      ∀ text ∈ source.checkedPatterns, course.engine.Accepts text := by
    intro other member
    rw [checked] at member
    rcases List.mem_cons.mp member with rfl | member
    · exact start
    · split at member
      · cases member
      next unresolved =>
        rw [List.mem_singleton.mp member]
        exact closing (by simpa using unresolved)
  unfold compileSpanning
  apply runs_bind (entered.runs_addPattern fun _ => by simp [checked])
  rintro started start fromState ⟨startKeeps, startAccepts⟩
  have startAccepts := startAccepts (by simp)
  have entered := entered.later fromState
  apply runs_bind (entered.runs_captures recursive (either (by simp [RuleSource.captureTables])))
  intro begun startTable fromStarted startTabled
  have entered := entered.later fromStarted
  have startKeeps := fromStarted.carries.keeps startKeeps
  cases condition : source.whilePattern with
  | some conditionText =>
    have same : source.closing = conditionText := by simp [RuleSource.closing, condition]
    rw [same] at closes accepted
    refine (entered.runs_ending recursive noMatch conditionText closes
      (either (by simp [RuleSource.captureTables])) (blockOf source start startTable)).weaken ?_
    rintro after _ fromBegun ⟨id, table, ids, rfl, keeps, tabled, listed, accepts⟩
    exact ⟨.block noMatch isStart condition (fromBegun.carries.keeps startKeeps)
      (startTabled.carry fromBegun.carries) keeps tabled listed, accepted startAccepts accepts⟩
  | none =>
    have same : source.closing = source.endPattern.getD (String.singleton Flavour.noChar) := by
      simp [RuleSource.closing, condition]
    rw [same] at closes accepted
    refine (entered.runs_ending recursive noMatch _ closes
      (either (by simp [RuleSource.captureTables])) (regionOf source start startTable)).weaken ?_
    rintro after _ fromBegun ⟨id, table, ids, rfl, keeps, tabled, listed, accepts⟩
    exact ⟨.region noMatch isStart condition (fromBegun.carries.keeps startKeeps)
      (startTabled.carry fromBegun.carries) keeps tabled listed, accepted startAccepts accepts⟩

/-- A rule that only holds others is finished as it is written. -/
theorem Entered.runs_compileGroup (entered : course.Entered state context number source)
    (noMatch : source.matchPattern = none) (noStart : source.beginPattern = none) :
    course.Runs state (compileGroup recurse course.grammars (context.inside source.repository) source)
      (course.Finishes context source) := by
  have unchecked : ∀ text ∈ source.checkedPatterns, course.engine.Accepts text := by
    simp [RuleSource.checkedPatterns, noMatch, noStart]
  have listed (noReference : source.standsFor = none) :
      course.Runs state
        (compilePatterns recurse course.grammars (context.inside source.repository)
            (source.patterns.getD []) >>= fun compiled =>
          pure (.group ⟨source.name, source.contentName, compiled.1, compiled.2⟩))
        (course.Finishes context source) := by
    apply runs_bind (entered.runs_patterns recursive noMatch)
    rintro middle _ _ ⟨ids, rfl, listed⟩
    exact runs_pure ⟨.group noMatch noStart noReference listed, unchecked⟩
  unfold compileGroup
  cases patterns : source.patterns with
  | some places =>
    rw [patterns] at listed
    exact listed (by simp [RuleSource.standsFor, patterns])
  | none =>
    cases reference : source.reference with
    | none =>
      rw [patterns] at listed
      exact listed (by simp [RuleSource.standsFor, reference])
    | some text =>
      have refers : source.standsFor = some text := by
        simp [RuleSource.standsFor, noMatch, noStart, patterns, reference]
      have visits (node : Context × Option Place)
          (found : course.grammars.target (context.inside source.repository) (.ofText text) =
            some node) : course.Visits node.1 node.2 := by
        rw [← entered.source] at refers found
        exact entered.visits.standsFor refers found
      apply runs_bind (runs_compileReference recursive text visits)
      intro middle resolved _ reached
      generalize found : course.grammars.target (context.inside source.repository)
        (.ofText text) = target at reached
      cases reached with
      | none => exact runs_pure ⟨.lost refers found, unchecked⟩
      | some numbered => exact runs_pure ⟨.renamed refers found numbered, unchecked⟩

/-- Whatever its kind, a rule that has been entered is finished as it is written. -/
theorem Entered.runs_compileRule (entered : course.Entered state context number source) :
    course.Runs state (compileRule recurse course.grammars course.engine context source)
      (course.Finishes context source) := by
  unfold compileRule
  cases isMatch : source.matchPattern with
  | some text =>
    have checked : source.checkedPatterns = [text] := by
      simp [RuleSource.checkedPatterns, isMatch]
    apply runs_bind (entered.runs_addPattern fun _ => by simp [checked])
    rintro added id fromState ⟨keeps, accepts⟩
    apply runs_bind ((entered.later fromState).runs_captures recursive
      (by simp [RuleSource.captureTables]))
    intro middle table fromAdded tabled
    refine runs_pure ⟨.single isMatch (fromAdded.carries.keeps keeps) tabled, fun other member => ?_⟩
    rw [checked] at member
    rw [List.mem_singleton.mp member]
    exact accepts (by simp)
  | none =>
    cases isStart : source.beginPattern with
    | some text => exact entered.runs_compileSpanning recursive isMatch isStart
    | none => exact entered.runs_compileGroup recursive isMatch isStart

theorem runs_compileTop (visits : course.Visits context none) :
    course.Runs state (compileTop recurse course.grammars context)
      (Made course.grammars · context none) := by
  unfold compileTop
  apply runs_bind (runs_compilePatterns recursive fun inner member node found =>
    visits.listed member found)
  rintro middle _ _ ⟨ids, rfl, listed⟩
  exact runs_pure (.top listed)

/-- What has just been given its number is made from its source. -/
theorem runs_compileFresh (visits : course.Visits context place)
    (numbered : (state.numberOf (context, place)).isSome) :
    course.Runs state (Lockstep.compileFresh course.grammars course.engine recurse context place)
      fun after rule => Made course.grammars after context place rule ∧
        ∀ text ∈ context.checkedPatterns place, course.engine.Accepts text := by
  cases place with
  | none =>
    exact (runs_compileTop recursive visits).weaken fun _ _ _ made =>
      ⟨made, fun _ member => nomatch member⟩
  | some number =>
    have entered : course.Entered state context number (context.grammar.rule number) :=
      ⟨visits, rfl, numbered⟩
    exact (entered.runs_compileRule recursive).weaken fun _ _ _ finishes =>
      ⟨.written finishes.1, finishes.2⟩

end Rules

/-- The next number is no other's. -/
theorem distinct_entered (distinct : before.Distinct) (key : Key) :
    (Lockstep.CompilerState.entered before key).Distinct where
  bounded other id given := by
    simp only [Lockstep.CompilerState.entered, Dictionary.get?_insert, Array.size_push] at given ⊢
    split at given
    · cases given
      exact Nat.lt_succ_self _
    · exact Nat.lt_succ_of_lt (distinct.bounded other id given)
  injective first second id given also := by
    simp only [Lockstep.CompilerState.entered, Dictionary.get?_insert] at given also
    split at given <;> split at also
    next here there => exact here.trans there.symm
    next =>
      cases given
      exact absurd (distinct.bounded second _ also) (Nat.lt_irrefl _)
    next =>
      cases also
      exact absurd (distinct.bounded first _ given) (Nat.lt_irrefl _)
    next => exact distinct.injective first second id given also

/-- The rule of something that was given a number is put under it, and the books are in
order again. -/
theorem Extends.close (visits : course.Visits context place)
    (fresh : before.numberOf (context, place) = none)
    (extended : course.Extends (Lockstep.CompilerState.entered before
      ⟨place, context.grammar.scopeName⟩) after) {rule : Rule}
    (made : Made course.grammars after context place rule)
    (accepts : ∀ text ∈ context.checkedPatterns place, course.engine.Accepts text) :
    course.Extends before
        { after with rules := after.rules.setIfInBounds before.rules.size rule } ∧
      course.Records { after with rules := after.rules.setIfInBounds before.rules.size rule }
        context place before.rules.size := by
  have size_entered : (Lockstep.CompilerState.entered before
      ⟨place, context.grammar.scopeName⟩).rules.size = before.rules.size + 1 := Array.size_push ..
  have size : before.rules.size + 1 ≤ after.rules.size := size_entered ▸ extended.size
  have kept (id : RuleId) (below : id < before.rules.size) :
      after.rules[id]? = before.rules[id]? := by
    rw [extended.rules id (size_entered ▸ Nat.lt_succ_of_lt below), Lockstep.CompilerState.entered,
      Array.getElem?_push_lt below, Array.getElem?_eq_getElem below]
  have reserved : after.rules[before.rules.size]? = some .reserved := by
    rw [extended.rules _ (by rw [size_entered]; omega)]
    exact Array.getElem?_push_size
  have carries : Carries after
      { after with rules := after.rules.setIfInBounds before.rules.size rule } := by
    refine ⟨fun _ _ given => given, fun _ _ held => held, fun id other held finished => ?_⟩
    have apart : before.rules.size ≠ id := by
      rintro rfl
      cases held.symm.trans reserved
      exact finished rfl
    rw [← held]
    exact Array.getElem?_setIfInBounds_ne apart
  have numbered : after.numberOf (context, place) = some before.rules.size :=
    extended.numbers _ _ (by simp [Lockstep.CompilerState.entered])
  have records : course.Records
      { after with rules := after.rules.setIfInBounds before.rules.size rule }
      context place before.rules.size := {
    visits := visits
    numbered := numbered
    made := ⟨rule, Array.getElem?_setIfInBounds_self_of_lt (Nat.lt_of_succ_le size),
      made.carry carries⟩
    accepts := accepts }
  refine ⟨?_, records⟩
  exact {
    size := by
      rw [Array.size_setIfInBounds]
      omega
    rules := fun id below => by
      rw [← kept id below]
      exact Array.getElem?_setIfInBounds_ne (by omega)
    numbers := fun key id given => by
      apply extended.numbers
      have apart : key ≠ ⟨place, context.grammar.scopeName⟩ := by
        rintro rfl
        cases given.symm.trans fresh
      simpa [Lockstep.CompilerState.entered, Dictionary.get?_insert, apart] using given
    patterns := extended.patterns
    recorded := fun key id given => by
      rcases extended.recorded key id given with old | ⟨other, same, recorded⟩
      · simp only [Lockstep.CompilerState.entered, Dictionary.get?_insert] at old
        split at old
        next here =>
          cases old
          subst here
          exact .inr ⟨context, rfl, records⟩
        next => exact .inl old
      · exact .inr ⟨other, same, recorded.carry carries⟩
    covered := fun id above below => by
      rw [Array.size_setIfInBounds] at below
      by_cases here : id = before.rules.size
      · subst here
        exact .inl ⟨context, place, records⟩
      · rcases extended.covered id (by rw [size_entered]; omega) below with
          ⟨other, inner, recorded⟩ | captured
        · exact .inl ⟨other, inner, recorded.carry carries⟩
        · exact .inr (captured.carry carries)
    distinct := fun distinct => by
      exact (extended.distinct (distinct_entered distinct _)).mono rfl
        (Nat.le_of_eq Array.size_setIfInBounds.symm) }

/-- Something without a number is given one, compiled, and put under it. -/
theorem run_compileAt_fresh (grammars : Loaded) (engine : Engine) (depth : Nat)
    (fresh : state.numberOf (context, place) = none) :
    (compileAt grammars engine (depth + 1) context place).run.run state =
      match (Lockstep.compileFresh grammars engine (compileAt grammars engine depth) context
          place).run.run (Lockstep.CompilerState.entered state ⟨place, context.grammar.scopeName⟩) with
      | (.ok rule, after) => (.ok state.rules.size,
          { after with rules := after.rules.setIfInBounds state.rules.size rule })
      | (.error error, after) => (.error error, after) := by
  have fresh : state.numbers.get? ⟨place, context.grammar.scopeName⟩ = none := fresh
  rw [Lockstep.run_compileAt, fresh]
  simp only [run_bind, Lockstep.CompilerState.entered]
  split
  next finished => rw [finished]; rfl
  next failed => rw [failed]

/-- Compiling something gives its number, and all that it comes by is recorded. -/
theorem recursive_compileAt (course : Course) (depth : Nat) :
    course.Recursive (compileAt course.grammars course.engine depth) := by
  induction depth with
  | zero => exact fun context place state visits => .outOfSteps
  | succ depth ih =>
    intro context place state visits
    unfold Runs
    cases fresh : state.numberOf (context, place) with
    | some id =>
      have fresh : state.numbers.get? ⟨place, context.grammar.scopeName⟩ = some id := fresh
      rw [Lockstep.run_compileAt, fresh]
      exact ⟨.refl state, fresh⟩
    | none =>
      have numbered : ((Lockstep.CompilerState.entered state
          ⟨place, context.grammar.scopeName⟩).numberOf (context, place)).isSome := by
        simp [CompilerState.numberOf, Lockstep.CompilerState.entered, Dictionary.get?_insert]
      have runs := runs_compileFresh ih visits numbered
      unfold Runs at runs
      rw [run_compileAt_fresh _ _ _ fresh]
      rcases result : (Lockstep.compileFresh course.grammars course.engine
        (compileAt course.grammars course.engine depth) context place).run.run
        (Lockstep.CompilerState.entered state ⟨place, context.grammar.scopeName⟩) with
        ⟨error | rule, after⟩
      · rw [result] at runs
        exact runs
      · rw [result] at runs
        obtain ⟨extended, made, accepts⟩ := runs
        obtain ⟨closed, records⟩ := extended.close visits fresh made accepts
        exact ⟨closed, records.numbered⟩

section Whole

/-- The injections of a selector list, whose rule has its number. -/
def injectedAt (state : CompilerState) (node : Context × Option Place) (selector : String) :
    List Injection :=
  (state.numberOf node).toList.flatMap (injectionsOf selector)

/-- The injections of a grammar in the order in which they are declared: those of its own
table, and then those of the grammars injected into it. -/
def declaredInjections (course : Course) (state : CompilerState) : List Injection :=
  ((course.base.injections.map Table.entries).getD []).flatMap (fun entry =>
      injectedAt state (.top course.base course.base, some entry.2) entry.1) ++
    course.injectors.flatMap fun injector =>
      (course.grammars.get? injector).toList.flatMap fun injected =>
        injected.injectionSelector.toList.flatMap fun selector =>
          injectedAt state (.top injected course.base, none) selector

theorem injectedAt_eq {node : Context × Option Place} {id : RuleId}
    (numbered : state.numberOf node = some id) (selector : String) :
    injectedAt state node selector = injectionsOf selector id := by
  simp [injectedAt, numbered]

theorem flatten_of_forall₂ {R : ι → List α → Prop} {list : ι → List α}
    (each : List.Forall₂ R items lists) (same : ∀ item held, R item held → held = list item) :
    lists.flatten = items.flatMap list := by
  induction each with
  | nil => rfl
  | cons first _ ih => rw [List.flatten_cons, List.flatMap_cons, ih, same _ _ first]

variable {recurse : Recurse} (recursive : course.Recursive recurse)
include recursive

/-- A grammar's own injections are those of its selectors, each with the number of its rule. -/
theorem runs_compileOwnInjections :
    course.Runs state (compileOwnInjections recurse course.base) fun after own =>
      ∀ final, Carries after final → own =
        ((course.base.injections.map Table.entries).getD []).flatMap fun entry =>
          injectedAt final (.top course.base course.base, some entry.2) entry.1 := by
  unfold compileOwnInjections
  apply runs_bind (runs_mapM (R := fun after entry held => ∃ id,
    after.numberOf (.top course.base course.base, some entry.2) = some id ∧
      held = injectionsOf entry.1 id) ?_ ?_ state)
  · intro middle lists _ declared
    refine runs_pure fun final carries => flatten_of_forall₂ declared ?_
    rintro entry _ ⟨id, numbered, rfl⟩
    exact (injectedAt_eq (carries.numberOf numbered) _).symm
  · rintro before after entry _ carries ⟨id, numbered, rfl⟩
    exact ⟨id, carries.numberOf numbered, rfl⟩
  · rintro ⟨selector, place⟩ member state
    apply runs_bind (recursive _ _ state (.own member))
    intro middle id _ numbered
    exact runs_pure ⟨id, numbered, rfl⟩

/-- What other grammars inject is their top levels, under their injection selectors. -/
theorem runs_compileInjectors :
    course.Runs state (compileInjectors recurse course.grammars course.base course.injectors)
      fun after injected => ∀ final, Carries after final → injected =
        course.injectors.flatMap fun injector =>
          (course.grammars.get? injector).toList.flatMap fun injected =>
            injected.injectionSelector.toList.flatMap fun selector =>
              injectedAt final (.top injected course.base, none) selector := by
  unfold compileInjectors
  -- The number that an injected grammar has stays what it is.
  apply runs_bind (runs_mapM (R := fun after injector held => ∀ final, Carries after final →
    held = (course.grammars.get? injector).toList.flatMap fun injected =>
      injected.injectionSelector.toList.flatMap fun selector =>
        injectedAt final (.top injected course.base, none) selector) ?_ ?_ state)
  · intro middle lists _ declared
    exact runs_pure fun final carries =>
      flatten_of_forall₂ declared fun injector held declares => declares final carries
  · intro before after injector held carries declares final later
    exact declares final (carries.trans later)
  · intro injector member state
    cases found : course.grammars.get? injector with
    | none => exact runs_bind (runs_warn _) fun _ _ _ _ => runs_pure fun _ _ => rfl
    | some injected =>
      cases selector : injected.injectionSelector with
      | none =>
        simp only [selector]
        exact runs_pure fun _ _ => by simp [selector]
      | some text =>
        simp only [selector]
        apply runs_bind (recursive _ _ state (.injector member found))
        intro middle id _ numbered
        refine runs_pure fun final carries => ?_
        simp [selector, injectedAt_eq (carries.numberOf numbered)]

end Whole

/-- A grammar is compiled to its root, and to its injections sorted by priority. -/
theorem runs_compileAll (found : course.grammars.get? scopeName = some course.base) :
    course.Runs state (compileAll scopeName course.grammars course.injectors course.engine)
      fun after result =>
        after.numberOf (.top course.base course.base, none) = some result.1 ∧
          result.2 = sortInjections (course.declaredInjections after) := by
  have recursive := course.recursive_compileAt (depthFor course.grammars)
  unfold compileAll
  rw [found]
  apply runs_bind (recursive _ _ state .root)
  intro rooted root _ numbered
  apply runs_bind (runs_compileOwnInjections recursive)
  intro injected own fromRooted ownDeclared
  apply runs_bind (runs_compileInjectors recursive)
  intro last others fromInjected othersDeclared
  refine runs_pure ⟨(fromRooted.trans fromInjected).carries.numberOf numbered, ?_⟩
  rw [ownDeclared last fromInjected.carries, othersDeclared last (.refl last)]
  rfl

/-- The state in which a compilation ends. -/
def finalState (course : Course) (scopeName : String) (journal : Journal) : CompilerState :=
  ((compileAll scopeName course.grammars course.injectors course.engine).run.run
    { journal := journal }).2

/-- What a compilation gives, with the books that it leaves. -/
structure Completes (course : Course) (compilation : Compilation) (final : CompilerState) : Prop where
  rules : compilation.grammar.rules = final.rules
  patterns : compilation.patterns = final.patterns
  root : final.numberOf (.top course.base course.base, none) = some compilation.grammar.root
  injections : compilation.grammar.injections = sortInjections (course.declaredInjections final)
  recorded : ∀ key id, final.numbers.get? key = some id →
    ∃ context, key.scopeName = context.grammar.scopeName ∧ course.Records final context key.place id
  covered : ∀ id < final.rules.size,
    (∃ context place, course.Records final context place id) ∨ Captured final id
  distinct : final.Distinct

/-- A compilation that succeeds completes what it has begun. -/
theorem completes (found : course.grammars.get? scopeName = some course.base)
    (compiles : (compile scopeName course.grammars course.injectors course.engine journal).1 =
      .ok compilation) : course.Completes compilation (course.finalState scopeName journal) := by
  have runs : course.Runs { journal := journal } _ _ := runs_compileAll found
  unfold Runs at runs
  unfold compile at compiles
  unfold finalState
  rcases result : (compileAll scopeName course.grammars course.injectors course.engine).run.run
    { journal := journal } with ⟨error | ⟨root, injections⟩, final⟩
  · rw [result] at compiles
    cases compiles
  · rw [result] at compiles runs
    cases compiles
    obtain ⟨extended, numbered, rfl⟩ := runs
    refine ⟨rfl, rfl, numbered, rfl, fun key id given => ?_,
      fun id below => extended.covered id (Nat.zero_le _) below,
      extended.distinct ⟨fun _ _ given => ?_, fun _ _ _ given => ?_⟩⟩
    · rcases extended.recorded key id given with old | recorded
      · cases old
      · exact recorded
    · cases given
    · cases given

/-- A compilation that fails does so at a pattern that it reaches. -/
theorem fails (found : course.grammars.get? scopeName = some course.base)
    (failed : (compile scopeName course.grammars course.injectors course.engine journal).1 =
      .error error) : course.Fails (course.finalState scopeName journal) error := by
  have runs : course.Runs { journal := journal } _ _ := runs_compileAll found
  unfold Runs at runs
  unfold compile at failed
  unfold finalState
  rcases result : (compileAll scopeName course.grammars course.injectors course.engine).run.run
    { journal := journal } with ⟨error | ⟨root, injections⟩, final⟩
  · rw [result] at failed runs
    cases failed
    exact runs
  · rw [result] at failed
    cases failed

end Grammar.Course
end ScopeLexer

import ScopeLexer.Proofs.StoreSoundness

/-!
The units of a pattern. A text is read twice in units, each a backslash with the character after it or one
character: once when the pattern is normalised, which finds out whether the flavours differ, and once for
each flavour, in the normalised text. Both readings see the same units but for `\z`, whose replacement has
no anchors. So a pattern in which no anchor was found is the same text in all flavours, and what was
compiled for one of them may be used for the others.
-/
namespace ScopeLexer

open Pattern Regex

namespace Pattern

/-- What the text of a pattern is made of. A backslash at the end has no character after it. -/
inductive TextUnit where
  | escape (letter : Char)
  | plain (c : Char)
  deriving Repr, DecidableEq

namespace TextUnit

def chars : TextUnit → List Char
  | escape letter => ['\\', letter]
  | plain c => [c]

/-- The unit is an anchor that cannot hold. -/
def Inactive (flavour : Flavour) (unit : TextUnit) : Prop :=
  (unit = escape 'A' ∧ flavour.allows 'A' = false) ∨ (unit = escape 'G' ∧ flavour.allows 'G' = false)

instance (flavour : Flavour) (unit : TextUnit) : Decidable (unit.Inactive flavour) :=
  inferInstanceAs (Decidable (_ ∨ _))

/-- The characters of a unit in a flavour. -/
def charsIn (flavour : Flavour) (unit : TextUnit) : List Char :=
  if unit.Inactive flavour then [Flavour.noChar] else unit.chars

theorem charsIn_escape (flavour : Flavour) (letter : Char) :
    (escape letter).charsIn flavour =
      if (letter = 'A' || letter = 'G') && !flavour.allows letter then [Flavour.noChar]
      else ['\\', letter] := by
  have same : (escape letter).Inactive flavour ↔
      ((letter = 'A' || letter = 'G') && !flavour.allows letter) = true := by
    simp only [Inactive, escape.injEq, Bool.and_eq_true, Bool.or_eq_true, decide_eq_true_eq,
      Bool.not_eq_true']
    constructor
    · rintro (⟨rfl, inactive⟩ | ⟨rfl, inactive⟩) <;> simp [inactive]
    · rintro ⟨rfl | rfl, inactive⟩ <;> simp [inactive]
  exact ite_congr (propext same) (fun _ => rfl) fun _ => rfl

@[simp]
theorem charsIn_plain (flavour : Flavour) (c : Char) : (plain c).charsIn flavour = [c] := by
  simp [charsIn, Inactive, chars]

end TextUnit

def units : List Char → List TextUnit
  | [] => []
  | ['\\'] => [.plain '\\']
  | '\\' :: letter :: rest => .escape letter :: units rest
  | c :: rest => .plain c :: units rest

/-- The units that a unit is normalised to. -/
def TextUnit.normalised (unit : TextUnit) : List TextUnit :=
  if unit = .escape 'z' then units endOfText else [unit]

theorem flatMap_chars_units (text : List Char) : (units text).flatMap TextUnit.chars = text := by
  fun_induction units text with
  | case1 => rfl
  | case2 => rfl
  | case3 letter rest ih => simp [TextUnit.chars, ih]
  | case4 c rest _ _ ih => simp [TextUnit.chars, ih]

theorem units_endOfText_append (rest : List Char) :
    units (endOfText ++ rest) = units endOfText ++ units rest := rfl

/-- Normalising reads a text unit by unit. -/
theorem units_normalise (text : List Char) :
    units (normalise text).chars = (units text).flatMap TextUnit.normalised := by
  fun_induction normalise text with
  | case1 => rfl
  | case2 => rfl
  | case3 rest draft ih =>
    rw [units_endOfText_append, ih, units, List.flatMap_cons]
    rfl
  | case4 letter rest draft other ih =>
    simp [draft, units, ih, TextUnit.normalised, other]
  | case5 c rest alone other draft ih =>
    have plain : c ≠ '\\' := by
      rintro rfl
      cases rest with
      | nil => exact alone rfl rfl
      | cons letter rest => exact other letter rest rfl rfl
    have single (rest : List Char) : units (c :: rest) = .plain c :: units rest :=
      units.eq_4 c rest (fun same _ => plain same) (fun _ _ same _ => plain same)
    simp [draft, single, ih, TextUnit.normalised]

/-- Normalising notices an anchor exactly if it is a unit. -/
theorem anchors_normalise (text : List Char) :
    ((normalise text).hasA = true ↔ .escape 'A' ∈ units text) ∧
      ((normalise text).hasG = true ↔ .escape 'G' ∈ units text) := by
  fun_induction normalise text with
  | case1 => simp [units]
  | case2 => simp [units]
  | case3 rest draft ih => simpa [draft, units] using ih
  | case4 letter rest draft other ih =>
    simp only [units, List.mem_cons, TextUnit.escape.injEq, Bool.or_eq_true, decide_eq_true_eq]
    exact ⟨or_congr eq_comm ih.1, or_congr eq_comm ih.2⟩
  | case5 c rest alone other draft ih => simpa [draft, units.eq_4 c rest alone other] using ih

/-- An anchor that a text has is one that it keeps, and the replacement of `\z` brings no other. -/
theorem anchor_mem_normalised (letter : Char) (anchor : letter = 'A' ∨ letter = 'G')
    (text : List Char) :
    .escape letter ∈ (units text).flatMap TextUnit.normalised ↔ .escape letter ∈ units text := by
  have own (unit : TextUnit) : .escape letter ∈ unit.normalised ↔ .escape letter = unit := by
    unfold TextUnit.normalised
    split
    next same =>
      subst same
      rcases anchor with rfl | rfl <;> decide +kernel
    next => exact List.mem_singleton
  simp [List.mem_flatMap, own]

/-- The anchors that cannot hold are replaced, and all other units are copied. -/
theorem replaceChars_units (flavour : Flavour) (text : List Char) :
    flavour.replaceChars text = (units text).flatMap (·.charsIn flavour) := by
  fun_induction Flavour.replaceChars flavour text with
  | case1 => rfl
  | case2 => simp [units]
  | case3 letter rest replaced ih =>
    rw [units, List.flatMap_cons, TextUnit.charsIn_escape, if_pos replaced, ih]
    rfl
  | case4 letter rest kept ih =>
    rw [units, List.flatMap_cons, TextUnit.charsIn_escape, if_neg kept, ih]
    rfl
  | case5 c rest alone other ih => simp [units.eq_4 c rest alone other, ih]

/-- What has no anchor that a flavour replaces is kept. -/
theorem replaceChars_eq_self {flavour : Flavour} {text : List Char}
    (active : ∀ unit ∈ units text, ¬ unit.Inactive flavour) : flavour.replaceChars text = text := by
  have kept : (units text).map (·.charsIn flavour) = (units text).map TextUnit.chars :=
    List.map_congr_left fun unit member => if_neg (active unit member)
  rw [replaceChars_units, List.flatMap, kept, ← List.flatMap, flatMap_chars_units]

/-- Without inactive anchors nothing is replaced. -/
theorem replaceAnchors_eq_self {flavour : Flavour} {source : String}
    (active : ∀ unit ∈ units source.toList, ¬ unit.Inactive flavour) :
    flavour.replaceAnchors source = source := by
  rw [replaceAnchors_eq, replaceChars_eq_self active, String.ofList_toList]

/-- No anchor was noticed, so none is replaced. -/
theorem replaceAnchors_of_not_hasAnchors {text : String}
    (none : (Pattern.ofText text).hasAnchors = false) (flavour : Flavour) :
    flavour.replaceAnchors (Pattern.ofText text).source = (Pattern.ofText text).source := by
  obtain ⟨hasA, hasG⟩ := Bool.or_eq_false_iff.mp none
  have absent (letter : Char) (anchor : letter = 'A' ∨ letter = 'G')
      (unnoticed : .escape letter ∉ units text.toList) :
      .escape letter ∉ units (Pattern.ofText text).source.toList := by
    intro member
    rw [Pattern.ofText, String.toList_ofList, units_normalise] at member
    exact unnoticed ((anchor_mem_normalised letter anchor text.toList).mp member)
  have noA := absent 'A' (.inl rfl) fun member =>
    Bool.false_ne_true (hasA.symm.trans ((anchors_normalise text.toList).1.mpr member))
  have noG := absent 'G' (.inr rfl) fun member =>
    Bool.false_ne_true (hasG.symm.trans ((anchors_normalise text.toList).2.mpr member))
  refine replaceAnchors_eq_self fun unit member inactive => ?_
  rcases inactive with ⟨rfl, _⟩ | ⟨rfl, _⟩
  · exact noA member
  · exact noG member

end Pattern

namespace CachedPattern

/-- What is asked of a pattern: whether the engine takes it, or what it is compiled to in a flavour. -/
inductive Request where
  | validate
  | compile (flavour : Flavour)
  deriving Repr, DecidableEq

/-- The pattern after a request, whatever the answer. -/
def afterRequest (engine : Engine) (state : CachedPattern × Journal) :
    Request → CachedPattern × Journal
  | .validate => match state.1.validate engine state.2 with
    | (.ok checked, journal) => (checked, journal)
    | (.error _, journal) => (state.1, journal)
  | .compile flavour => (state.1.compiled engine flavour state.2).2

/-- A request leaves the pattern, with slots that hold what the engine makes of it. -/
theorem Sound.afterRequest {state : CachedPattern × Journal} (sound : Sound engine state.1)
    (request : Request) :
    (CachedPattern.afterRequest engine state request).1.pattern = state.1.pattern ∧
      Sound engine (CachedPattern.afterRequest engine state request).1 := by
  cases request with
  | compile flavour => exact (sound.compiled flavour state.2).2
  | validate =>
    simp only [CachedPattern.afterRequest]
    cases answer : state.1.validate engine state.2 with
    | mk checked journal =>
      cases checked with
      | ok checked => exact sound.validate answer
      | error reason => exact ⟨rfl, sound⟩

/-- So does any number of requests. -/
theorem Sound.afterRequests (state : CachedPattern × Journal) (sound : Sound engine state.1)
    (requests : List Request) :
    (requests.foldl (CachedPattern.afterRequest engine) state).1.pattern = state.1.pattern ∧
      Sound engine (requests.foldl (CachedPattern.afterRequest engine) state).1 := by
  induction requests generalizing state with
  | nil => exact ⟨rfl, sound⟩
  | cons request requests ih =>
    obtain ⟨same, next⟩ := sound.afterRequest request
    obtain ⟨sameLater, later⟩ := ih _ next
    exact ⟨sameLater.trans same, later⟩

end CachedPattern

/-- A slot may be shared. The text of a pattern consists of units, and so does the normalised text, with
the units of its replacement in place of each `\z`; both have the anchors that were noticed. A flavour
replaces the units that are anchors which cannot hold, and copies all others. If no anchor was noticed, this
leaves the text as it is. So whatever was asked of the pattern before, what is compiled for a flavour is what
the engine makes of the text in that flavour, and nothing if it refuses that. -/
theorem Pattern.flavours_shared (text : String) :
    let pattern := Pattern.ofText text
    (units text.toList).flatMap TextUnit.chars = text.toList ∧
    units pattern.source.toList = (units text.toList).flatMap TextUnit.normalised ∧
    (pattern.hasA = true ↔ .escape 'A' ∈ units pattern.source.toList) ∧
    (pattern.hasG = true ↔ .escape 'G' ∈ units pattern.source.toList) ∧
    (∀ flavour : Flavour, (flavour.replaceAnchors pattern.source).toList =
      (units pattern.source.toList).flatMap (·.charsIn flavour)) ∧
    (pattern.hasA = false → pattern.hasG = false → ∀ flavour : Flavour,
      flavour.replaceAnchors pattern.source = pattern.source) ∧
    ∀ (engine : Engine) (requests : List CachedPattern.Request) (journal : Journal)
      (flavour : Flavour) (later : Journal),
      let asked := requests.foldl (CachedPattern.afterRequest engine)
        (CachedPattern.ofText text, journal)
      (asked.1.compiled engine flavour later).1 =
        (engine.compile (flavour.replaceAnchors pattern.source)).toOption := by
  have source : (Pattern.ofText text).source.toList = (normalise text.toList).chars := by
    simp [Pattern.ofText]
  have kept : (units (Pattern.ofText text).source.toList) =
      (units text.toList).flatMap TextUnit.normalised := by
    rw [source, units_normalise]
  have found := anchors_normalise text.toList
  refine ⟨flatMap_chars_units _, kept, ?_, ?_, ?_, ?_, ?_⟩
  · rw [kept, anchor_mem_normalised 'A' (.inl rfl)]
    exact found.1
  · rw [kept, anchor_mem_normalised 'G' (.inr rfl)]
    exact found.2
  · intro flavour
    rw [replaceAnchors_eq, String.toList_ofList, replaceChars_units]
  · intro noA noG flavour
    exact replaceAnchors_of_not_hasAnchors (Bool.or_eq_false_iff.mpr ⟨noA, noG⟩) flavour
  · intro engine requests journal flavour later
    have start : (CachedPattern.ofText text).Sound engine :=
      CachedPattern.sound_untouched engine (Pattern.ofText text)
    obtain ⟨same, sound⟩ := CachedPattern.Sound.afterRequests (_, journal) start requests
    have answer := (sound.compiled flavour later).1
    rw [same] at answer
    refine answer.trans ?_
    change Pattern.searcher (Pattern.ofText text) engine flavour = _
    unfold Pattern.searcher
    split
    next => rfl
    next unnoticed =>
      have none := eq_false_of_ne_true unnoticed
      rw [replaceAnchors_of_not_hasAnchors none, replaceAnchors_of_not_hasAnchors none]

end ScopeLexer

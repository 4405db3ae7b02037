import ScopeLexer.Proofs.ThemeLevels
import ScopeLexer.ScopePath

/-!
What the metadata of a path of scopes says. Each scope is given a style inside the scopes around it, and
each field of the metadata comes from the innermost scope whose style says something for it: a colour
whose number fits the field, or a font style. Where no scope does, it comes from the defaults of the
theme. So a field always holds the number of a colour that the theme's rules write, never a number cut
to the width of the field.

The style is looked up by the name as it is pushed, whereas the path keeps the name without blanks at
its ends. For names without such blanks the styles are those of the scopes on the path. For others they
need not be, and a counterexample stands at the end.
-/
namespace ScopeLexer

open Style Theme

namespace Style.FontStyle

/-- A style of nothing but the four styles, for which metadata has room. -/
def Fits (style : FontStyle) : Prop := style.toNat < 16

instance (style : FontStyle) : Decidable style.Fits := inferInstanceAs (Decidable (style.toNat < 16))

theorem toNat_lt (style : FontStyle) : style.toNat < 256 := style.bits.isLt

@[simp] theorem toNat_ofNat (number : Nat) : (ofNat number).toNat = number % 16 := by
  have low : (BitVec.ofNat 8 number &&& 0b1111).toNat = number % 2 ^ 8 % 2 ^ 4 :=
    Nat.and_two_pow_sub_one_eq_mod (number % 2 ^ 8) 4
  rw [ofNat, toNat, low]
  omega

theorem ext_toNat {style other : FontStyle} (same : style.toNat = other.toNat) : style = other :=
  congrArg FontStyle.mk (BitVec.eq_of_toNat_eq same)

theorem Fits.ofNat_toNat {style : FontStyle} (fits : style.Fits) : ofNat style.toNat = style :=
  ext_toNat (by rw [toNat_ofNat, Nat.mod_eq_of_lt fits])

/-- What fits has no bits beyond those that metadata has room for. -/
theorem Fits.excess {style : FontStyle} (fits : style.Fits) : style.toNat / 16 = 0 :=
  Nat.div_eq_of_lt fits

theorem fits_ofNat (number : Nat) : (ofNat number).Fits := by
  rw [Fits, toNat_ofNat]
  exact Nat.mod_lt _ (by decide)

theorem Fits.union {style other : FontStyle} (fits : style.Fits) (alike : other.Fits) :
    (style.union other).Fits := by
  rw [Fits, toNat, FontStyle.union, BitVec.toNat_or]
  exact Nat.or_lt_two_pow (n := 4) fits alike

theorem fits_plain : plain.Fits := by decide

theorem fits_ofWord (word : String) : (ofWord word).Fits := by
  unfold ofWord
  split <;> decide

/-- What a theme says is a style of the four styles. -/
theorem fits_ofText (text : String) : (ofText text).Fits :=
  List.foldlRecOn _ _ fits_plain fun _ fits word _ => fits.union (fits_ofWord word)

end Style.FontStyle

namespace Style.Metadata

section Fields

variable (language : Nat) (kind : TokenType) (balanced : Bool) (fontStyle : FontStyle)
  (foreground background : Nat)

theorem parts_fit : kind.code < 4 ∧ balanced.toNat < 2 ∧ fontStyle.toNat < 256 := by
  refine ⟨?_, balanced.toNat_lt, fontStyle.toNat_lt⟩
  cases kind <;> decide

/-- Bits side by side are a sum. -/
theorem or_shiftLeft {low bits : Nat} (high : Nat) (small : low < 1 <<< bits) :
    low ||| high <<< bits = low + high <<< bits := by
  rw [Nat.one_shiftLeft] at small
  rw [Nat.or_comm, ← Nat.shiftLeft_add_eq_or_of_lt small, Nat.add_comm]

/-- The packed word as a sum. The bits of the font style beyond its field are in the foreground. -/
theorem word_pack : (pack language kind balanced fontStyle foreground background).word.toNat =
    language % 0x100 + kind.code * 0x100 + balanced.toNat * 0x400 + fontStyle.toNat % 16 * 0x800 +
      (foreground % 0x200 ||| fontStyle.toNat / 16) * 0x8000 + background % 0x100 * 0x1000000 := by
  obtain ⟨kinds, balances, styles⟩ := parts_fit kind balanced fontStyle
  have colors : (foreground % 0x200 ||| fontStyle.toNat / 16) < 2 ^ 9 :=
    Nat.or_lt_two_pow (by omega) (by omega)
  have style : fontStyle.toNat <<< 11 =
      (fontStyle.toNat % 16) <<< 11 ||| (fontStyle.toNat / 16) <<< 15 := by
    rw [or_shiftLeft] <;> simp only [Nat.shiftLeft_eq] <;> omega
  have parts : language % 0x100 ||| kind.code <<< 8 ||| balanced.toNat <<< 10 |||
      fontStyle.toNat <<< 11 ||| (foreground % 0x200) <<< 15 ||| (background % 0x100) <<< 24 =
    language % 0x100 + kind.code * 0x100 + balanced.toNat * 0x400 + fontStyle.toNat % 16 * 0x800 +
      (foreground % 0x200 ||| fontStyle.toNat / 16) * 0x8000 + background % 0x100 * 0x1000000 := by
    rw [style, ← Nat.or_assoc, Nat.or_assoc _ ((fontStyle.toNat / 16) <<< 15),
      ← Nat.shiftLeft_or_distrib, Nat.or_comm (fontStyle.toNat / 16), or_shiftLeft kind.code,
      or_shiftLeft balanced.toNat, or_shiftLeft (fontStyle.toNat % 16),
      or_shiftLeft (foreground % 0x200 ||| fontStyle.toNat / 16), or_shiftLeft (background % 0x100)]
      <;> omega
  rw [pack, parts]
  refine UInt32.toNat_ofNat_of_lt' ?_
  rw [UInt32.size]
  omega

/-- The bits of each field hold what was packed there, cut to the width of the field. In the foreground
there are also the bits of the font style beyond its field. -/
theorem field_pack : let data := pack language kind balanced fontStyle foreground background
    data.field 0 8 = language % 0x100 ∧ data.field 8 2 = kind.code ∧
      data.field 10 1 = balanced.toNat ∧ data.field 11 4 = fontStyle.toNat % 16 ∧
      data.field 15 9 = (foreground % 0x200 ||| fontStyle.toNat / 16) ∧
      data.field 24 8 = background % 0x100 := by
  have := parts_fit kind balanced fontStyle
  have : (foreground % 0x200 ||| fontStyle.toNat / 16) < 2 ^ 9 :=
    Nat.or_lt_two_pow (by omega) (by omega)
  simp only [field, word_pack, Nat.shiftRight_eq_div_pow, Nat.shiftLeft_eq]
  omega

@[simp] theorem balanced_pack :
    (pack language kind balanced fontStyle foreground background).balanced = balanced := by
  rw [Metadata.balanced, (field_pack ..).2.2.1]
  cases balanced <;> rfl

@[simp] theorem fontStyle_pack :
    (pack language kind balanced fontStyle foreground background).fontStyle =
      .ofNat fontStyle.toNat := by
  refine FontStyle.ext_toNat ?_
  rw [Metadata.fontStyle, (field_pack ..).2.2.2.1, FontStyle.toNat_ofNat, FontStyle.toNat_ofNat,
    Nat.mod_mod]

@[simp] theorem foreground_pack :
    (pack language kind balanced fontStyle foreground background).foreground =
      (foreground % 0x200 ||| fontStyle.toNat / 16) :=
  (field_pack ..).2.2.2.2.1

@[simp] theorem background_pack :
    (pack language kind balanced fontStyle foreground background).background =
      background % 0x100 :=
  (field_pack ..).2.2.2.2.2

end Fields

theorem chosenColor_le (fits : held ≤ largest) : chosenColor given held largest ≤ largest := by
  unfold chosenColor
  grind

theorem foreground_le (data : Metadata) : data.foreground ≤ largestForeground :=
  Nat.le_of_lt_succ (Nat.mod_lt _ (by decide))

theorem background_le (data : Metadata) : data.background ≤ largestBackground :=
  Nat.le_of_lt_succ (Nat.mod_lt _ (by decide))

theorem fits_fontStyle (data : Metadata) : data.fontStyle.Fits := FontStyle.fits_ofNat _

/-- The font style of the result is the given one without the bits that there is no room for. -/
theorem fontStyle_set (data : Metadata) (update : Update) : (data.set update).fontStyle =
    (update.fontStyle.map fun style => .ofNat style.toNat).getD data.fontStyle := by
  rw [set, fontStyle_pack]
  cases update.fontStyle with
  | none => exact data.fits_fontStyle.ofNat_toNat
  | some style => rfl

/-- The bits of a font style for which there is no room appear in the foreground. -/
theorem foreground_set (data : Metadata) (update : Update) : (data.set update).foreground =
    (chosenColor update.foreground data.foreground largestForeground |||
      (update.fontStyle.map (·.toNat / 16)).getD 0) := by
  have chosen : chosenColor update.foreground data.foreground largestForeground % 0x200 =
      chosenColor update.foreground data.foreground largestForeground :=
    Nat.mod_eq_of_lt (Nat.lt_succ_of_le (chosenColor_le data.foreground_le))
  rw [set, foreground_pack, chosen]
  cases update.fontStyle with
  | none => rw [Option.getD_none, data.fits_fontStyle.excess, Option.map_none, Option.getD_none]
  | some style => rfl

theorem background_set (data : Metadata) (update : Update) : (data.set update).background =
    chosenColor update.background data.background largestBackground := by
  rw [set, background_pack]
  exact Nat.mod_eq_of_lt (Nat.lt_succ_of_le (chosenColor_le data.background_le))

section Fitting

variable {update : Update} (fits : ∀ style ∈ update.fontStyle, style.Fits)
include fits

/-- With a style that fits, merging leaves no field cut. -/
theorem fontStyle_set_fits (data : Metadata) :
    (data.set update).fontStyle = update.fontStyle.getD data.fontStyle := by
  rw [fontStyle_set]
  cases given : update.fontStyle with
  | none => rfl
  | some style => exact (fits style given).ofNat_toNat

theorem foreground_set_fits (data : Metadata) : (data.set update).foreground =
    chosenColor update.foreground data.foreground largestForeground := by
  rw [foreground_set]
  cases given : update.fontStyle with
  | none => exact Nat.or_zero _
  | some style => rw [Option.map_some, Option.getD_some, (fits style given).excess, Nat.or_zero]

end Fitting
end Style.Metadata

namespace Theme

/-- The font style that a rule sets fits, as it does in a rule that is read from a document. -/
def Rule.Fits (rule : Rule) : Prop := ∀ style ∈ rule.fontStyle, style.Fits

/-- The font styles that a theme has for scopes and for the defaults fit. -/
structure StylesFit (theme : Theme) : Prop where
  defaults : ∀ style ∈ theme.defaults.fontStyle, style.Fits
  scopes : ∀ scope ancestors, ∀ found ∈ theme.matchScope scope ancestors,
    ∀ style ∈ found.fontStyle, style.Fits

theorem fits_rulesOf (entries : List Entry) : ∀ rule ∈ (rulesOf entries).1, rule.Fits := by
  intro rule member style set
  simp only [rulesOf, List.mem_flatMap, List.mem_mapIdx] at member
  obtain ⟨part, ⟨index, within, rfl⟩, member⟩ := member
  simp only [Entry.rules, List.mem_map] at member
  obtain ⟨selector, -, rfl⟩ := member
  obtain ⟨text, -, rfl⟩ := Option.map_eq_some_iff.mp set
  exact FontStyle.fits_ofText text

/-- Applying a rule with a fitting font style keeps the styles of a level fitting. -/
theorem fits_apply {level : Level} {rule : Rule} (own : rule.Fits)
    (fits : ∀ held ∈ level.styles, ∀ style ∈ held.fontStyle, style.Fits) (depth : Nat) :
    ∀ held ∈ (level.apply depth rule).styles, ∀ style ∈ held.fontStyle, style.Fits := by
  have changed : ∀ held ∈ level.styles, ∀ style ∈ rule.fontStyle.or held.fontStyle, style.Fits :=
    fun held member style set =>
      (Option.or_eq_some_iff.mp set).elim (own style) fun set => fits held member style set.2
  obtain ⟨main, qualified⟩ := List.forall_mem_cons.mp fits
  obtain ⟨mainChanged, qualifiedChanged⟩ := List.forall_mem_cons.mp changed
  unfold Level.apply
  split
  · exact List.forall_mem_cons.mpr ⟨mainChanged, qualified⟩
  split
  · refine List.forall_mem_cons.mpr ⟨main, List.forall_mem_map.mpr fun held member => ?_⟩
    split
    · exact qualifiedChanged held member
    · exact qualified held member
  · refine List.forall_mem_cons.mpr ⟨main, List.forall_mem_append.mpr ⟨qualified, ?_⟩⟩
    exact List.forall_mem_singleton.mpr mainChanged

/-- The styles of every level fit if those of the rules do. -/
theorem fits_levelAt {rules : List Rule} (fits : ∀ rule ∈ rules, rule.Fits) (atoms : List String)
    (depth : Nat) :
    ∀ held ∈ (levelAt rules atoms depth).styles, ∀ style ∈ held.fontStyle, style.Fits := by
  induction depth with
  | zero => simp [levelAt, Level.start, Level.styles]
  | succ depth ih =>
    refine List.foldlRecOn (motive := fun level : Level => ∀ held ∈ level.styles,
      ∀ style ∈ held.fontStyle, style.Fits) _ _ ih fun level fitting rule member =>
        fits_apply (fits rule ?_) fitting _
    exact List.mem_of_mem_filter (List.mem_mergeSort.mp member)

/-- Rules with fitting font styles make a theme whose styles fit. -/
theorem fits_ofRules (name : Option String) {rules : List Rule}
    (fits : ∀ rule ∈ rules, rule.Fits) : (ofRules name rules).StylesFit where
  defaults := by
    have folded : (((sortRules rules).takeWhile (·.scope = "")).foldl Defaults.apply {}).fontStyle.Fits :=
      List.foldlRecOn (motive := fun defaults : Defaults => defaults.fontStyle.Fits) _ _
        FontStyle.fits_plain fun defaults held rule member => by
          cases set : rule.fontStyle with
          | none => simpa [Defaults.apply, set] using held
          | some style =>
            have own := fits rule (List.mem_mergeSort.mp ((List.takeWhile_sublist _).subset member)) style set
            simpa [Defaults.apply, set] using own
    exact fun style set => Option.some.inj set ▸ folded
  scopes scope ancestors found matched style set := by
    obtain ⟨before, rule, after, whole, -, -, same⟩ := matchScope_eq name rules scope ancestors
    obtain rfl := Option.some.inj (same.symm.trans matched)
    have member : rule ∈ (ofRules name rules).trie.find (atomsOf scope) := by simp [whole]
    rw [find_ofRules] at member
    obtain ⟨written, held, rfl⟩ := List.mem_map.mp (List.mem_mergeSort.mp member)
    exact fits_levelAt fits (atomsOf scope) (atomsOf scope).length written held style set

end Theme

section Inheritance

/-- The first of some numbers that is set and not too large, else another. -/
def firstFitting (largest : Nat) (numbers : List Nat) (default : Nat) : Nat :=
  (numbers.find? fun number => 1 ≤ number ∧ number ≤ largest).getD default

/-- Metadata says what the first of some styles that has something to say says, else the defaults. -/
structure Styled (defaults : StyleAttributes) (styles : List StyleAttributes) (data : Metadata) :
    Prop where
  foreground : data.foreground =
    firstFitting largestForeground (styles.map (·.foreground)) defaults.foreground
  background : data.background =
    firstFitting largestBackground (styles.map (·.background)) defaults.background
  fontStyle : some data.fontStyle = (styles.findSome? (·.fontStyle)).or defaults.fontStyle
  balanced : data.balanced = false

theorem firstFitting_cons (largest number : Nat) (numbers : List Nat) (default : Nat) :
    firstFitting largest (number :: numbers) default =
      Metadata.chosenColor number (firstFitting largest numbers default) largest := by
  by_cases fits : 1 ≤ number ∧ number ≤ largest
  · have set : number ≠ 0 := by omega
    simp [firstFitting, Metadata.chosenColor, fits, set]
  · have unset : ¬ (number ≠ 0 ∧ number ≤ largest) := by omega
    simp only [firstFitting, Metadata.chosenColor, List.find?_cons, fits, decide_false,
      Bool.and_eq_true, decide_eq_true_eq, unset, if_false]

variable {styling : Styling} {styles : List StyleAttributes} {data : Metadata}

theorem fits_update (fits : styling.theme.StylesFit) (scope : String) (ancestors : List String) :
    ∀ style ∈ (styling.update scope ancestors).fontStyle, style.Fits := by
  intro style set
  cases found : styling.theme.matchScope scope ancestors with
  | none => simp [Styling.update, found] at set
  | some own =>
    simp only [Styling.update, found, Option.getD_some] at set
    exact fits.scopes scope ancestors own found style set

/-- One more scope puts its style before those of the scopes around it. -/
theorem Styled.update (fits : styling.theme.StylesFit) (styled : Styled styling.theme.defaults styles data)
    (scope : String) (ancestors : List String) : Styled styling.theme.defaults
      ((styling.theme.matchScope scope ancestors).toList ++ styles)
      (data.set (styling.update scope ancestors)) := by
  have foreground := data.foreground_set_fits (fits_update fits scope ancestors)
  have fontStyle := data.fontStyle_set_fits (fits_update fits scope ancestors)
  cases found : styling.theme.matchScope scope ancestors with
  | none =>
    constructor
    · rw [foreground]
      simpa [Styling.update, found, Metadata.chosenColor] using styled.foreground
    · simpa [Metadata.background_set, Styling.update, found, Metadata.chosenColor]
        using styled.background
    · rw [fontStyle]
      simpa [Styling.update, found] using styled.fontStyle
    · simpa [Metadata.set, Styling.update] using styled.balanced
  | some style =>
    constructor
    · rw [foreground]
      simp [Styling.update, found, firstFitting_cons, styled.foreground]
    · simp [Metadata.background_set, Styling.update, found, firstFitting_cons, styled.background]
    · rw [fontStyle]
      cases own : style.fontStyle with
      | none => simpa [Styling.update, found, own] using styled.fontStyle
      | some given => simp [Styling.update, found, own]
    · simpa [Metadata.set, Styling.update] using styled.balanced

end Inheritance

namespace Style.ColorMap

/-- A number stands for a colour: it is in the map, it is read as the colour, and it is what asking for
the colour gives. -/
structure Names (map : ColorMap) (number : Nat) (color : String) : Prop where
  positive : 0 < number
  within : number < map.colors.size
  read : map.color? number = some (Text.toUpper color)
  asked : map.number (some color) = (number, map)

theorem names_number {map : ColorMap} (started : map.Started) (has : map.Has (some color)) :
    map.Names (map.number (some color)).1 color where
  positive := by simp [number_some started]
  within := by
    have := List.idxOf_lt_length_of_mem (has color rfl)
    rw [number_some started, size_eq started]
    omega
  read := color?_number started has
  asked := by
    obtain ⟨index, found⟩ := Option.isSome_iff_exists.mp (List.isSome_idxOf?.mpr (has color rfl))
    rw [number_eq, found]

/-- What may be a colour has number 0 or is one. -/
theorem number_names {map : ColorMap} (started : map.Started) (has : map.Has color) :
    (map.number color).1 = 0 ∨ ∃ text, color = some text ∧ map.Names (map.number color).1 text := by
  cases color with
  | none => exact .inl rfl
  | some text => exact .inr ⟨text, rfl, names_number started has⟩

end Style.ColorMap

namespace Theme

section Numbers

variable {name : Option String} {rules : List Rule}

/-- The defaults that the rules for no scope write. -/
def writtenDefaults (rules : List Rule) : Defaults :=
  ((sortRules rules).takeWhile (·.scope = "")).foldl Defaults.apply {}

theorem foreground_ofRules (name : Option String) (rules : List Rule) :
    (ofRules name rules).defaults.foreground =
      (({} : ColorMap).number (some (writtenDefaults rules).foreground)).1 := by
  simp only [ofRules, writtenDefaults]

theorem background_ofRules (name : Option String) (rules : List Rule) :
    (ofRules name rules).defaults.background =
      ((({} : ColorMap).number (some (writtenDefaults rules).foreground)).2.number
        (some (writtenDefaults rules).background)).1 := by
  simp only [ofRules, writtenDefaults]

/-- The colours of the defaults are the first that are given numbers. -/
theorem defaults_ofRules (name : Option String) (rules : List Rule) :
    (ofRules name rules).defaults.foreground = 1 ∧
      (ofRules name rules).defaults.background ≤ 2 := by
  have started : ({} : ColorMap).Started := by simp [ColorMap.Started]
  have after := ColorMap.number_started started (some (writtenDefaults rules).foreground)
  have few : (({} : ColorMap).number (some (writtenDefaults rules).foreground)).2.known.length = 1 := by
    rw [ColorMap.known_number started]
    simp [ColorMap.known]
  rw [foreground_ofRules, background_ofRules, ColorMap.number_some after]
  refine ⟨ColorMap.number_some started (writtenDefaults rules).foreground, ?_⟩
  rw [Nat.add_le_add_iff_right, ← few]
  exact List.idxOf_le_length

/-- The defaults of a theme have the numbers of the colours written for them. -/
theorem names_defaults (name : Option String) (rules : List Rule) :
    (ofRules name rules).colorMap.Names (ofRules name rules).defaults.foreground
        (writtenDefaults rules).foreground ∧
      (ofRules name rules).colorMap.Names (ofRules name rules).defaults.background
        (writtenDefaults rules).background := by
  have started : ({} : ColorMap).Started := by simp [ColorMap.Started]
  have after := ColorMap.number_started started (some (writtenDefaults rules).foreground)
  have second := (putIn_ofRules name rules).grows
  have first := (ColorMap.number_grows after (some (writtenDefaults rules).background)).trans second
  have ended := colorMap_started name rules
  rw [foreground_ofRules, background_ofRules]
  constructor
  · have names := ColorMap.names_number ended ((ColorMap.number_has started _).grow first)
    rwa [ColorMap.number_settled started first] at names
  · have names := ColorMap.names_number ended ((ColorMap.number_has after _).grow second)
    rwa [ColorMap.number_settled after second] at names

/-- The style of a scope has the numbers of the colours that rules write for the scope. -/
theorem matchScope_numbered {style : StyleAttributes}
    (found : (ofRules name rules).matchScope scope ancestors = some style) :
    ∃ written ∈ stylesFor rules scope,
      (style.foreground = 0 ∨ ∃ color, written.foreground = some color ∧
        (ofRules name rules).colorMap.Names style.foreground color) ∧
      (style.background = 0 ∨ ∃ color, written.background = some color ∧
        (ofRules name rules).colorMap.Names style.background color) := by
  have started := colorMap_started name rules
  obtain ⟨before, rule, after, whole, -, -, matched⟩ := matchScope_eq name rules scope ancestors
  rw [found, Option.some.injEq] at matched
  subst matched
  have member : rule ∈ (ofRules name rules).trie.find (atomsOf scope) := by simp [whole]
  rw [find_ofRules] at member
  obtain ⟨written, held, rfl⟩ := List.mem_map.mp (List.mem_mergeSort.mp member)
  have colored := (held_ofRules name rules (atomsOf scope)).1.colored written held
  exact ⟨written, held, ColorMap.number_names started colored.1,
    ColorMap.number_names started colored.2⟩

end Numbers
end Theme

namespace ScopePath

section Styles

variable {styling : Styling}

/-- The styles that the scopes of a path have, each inside the scopes around it, the innermost first. -/
def styles (theme : Theme) : ScopePath → List StyleAttributes
  | .root scope _ => (theme.matchScope scope.text []).toList
  | .inside outer scope _ => (theme.matchScope scope.text outer.ancestors).toList ++ outer.styles theme

/-- The names that some lists of scopes push, in order. -/
def pushedNames (pushes : List (Option String)) : List String :=
  pushes.flatMap fun names => (names.map Scope.pathPieces).getD []

/-- The styles of names by which a path grows, the innermost first, each looked up by the name as it is
pushed. -/
def stylesPushed (styling : Styling) : ScopePath → List String → List StyleAttributes
  | _, [] => []
  | path, name :: names => (path.pushOne styling name).stylesPushed styling names ++
      (styling.theme.matchScope name path.ancestors).toList

theorem foldl_push (pushes : List (Option String)) (path : ScopePath) :
    pushes.foldl (push styling) path = (pushedNames pushes).foldl (pushOne styling) path := by
  induction pushes generalizing path with
  | nil => rfl
  | cons names pushes ih =>
    simp only [List.foldl_cons, ih, pushedNames, List.flatMap_cons, List.foldl_append]
    cases names <;> rfl

/-- However a path grows, its metadata says what the innermost styles say. -/
theorem styled_foldl (fits : styling.theme.StylesFit) {styles : List StyleAttributes}
    (names : List String) {path : ScopePath}
    (styled : Styled styling.theme.defaults styles path.metadata) :
    Styled styling.theme.defaults (path.stylesPushed styling names ++ styles)
      (names.foldl (pushOne styling) path).metadata := by
  induction names generalizing path styles with
  | nil => exact styled
  | cons name names ih =>
    rw [stylesPushed, List.append_assoc]
    exact ih (styled.update fits name path.ancestors)

/-- Names without blanks at their ends are the scopes on the path, so they have the same styles. -/
theorem styles_foldl {names : List String} (trimmed : ∀ name ∈ names, Text.trim name = name)
    (path : ScopePath) : (names.foldl (pushOne styling) path).styles styling.theme =
      path.stylesPushed styling names ++ path.styles styling.theme := by
  induction names generalizing path with
  | nil => rfl
  | cons name names ih =>
    obtain ⟨here, rest⟩ := List.forall_mem_cons.mp trimmed
    rw [List.foldl_cons, ih rest, stylesPushed, List.append_assoc]
    simp only [pushOne, styles, Scope.ofText, here]

theorem mem_stylesPushed {style : StyleAttributes} {names : List String} {path : ScopePath}
    (member : style ∈ path.stylesPushed styling names) :
    ∃ name ∈ names, ∃ ancestors, styling.theme.matchScope name ancestors = some style := by
  induction names generalizing path with
  | nil => cases member
  | cons name names ih =>
    cases List.mem_append.mp member with
    | inl member =>
      obtain ⟨other, among, found⟩ := ih member
      exact ⟨other, List.mem_cons_of_mem name among, found⟩
    | inr member =>
      exact ⟨name, List.mem_cons_self, path.ancestors, Option.mem_toList.mp member⟩

end Styles
end ScopePath

section Paths

variable {map : ColorMap} {name : Option String} {rules : List Rule}
  {styles : List StyleAttributes} {data : Metadata}

/-- Where every colour is one that is written, or the default, so is the first that fits. -/
theorem firstFitting_names {Written : String → Prop} {field : StyleAttributes → Nat}
    (default : map.Names number text)
    (each : ∀ style ∈ styles, field style = 0 ∨ ∃ color, Written color ∧ map.Names (field style) color)
    (largest : Nat) : ∃ color, (color = text ∨ Written color) ∧
      map.Names (firstFitting largest (styles.map field) number) color := by
  cases found : (styles.map field).find? fun number => 1 ≤ number ∧ number ≤ largest with
  | none =>
    rw [firstFitting, found]
    exact ⟨text, .inl rfl, default⟩
  | some first =>
    obtain ⟨style, member, rfl⟩ := List.mem_map.mp (List.mem_of_find?_eq_some found)
    have fits := List.find?_some found
    obtain unset | ⟨color, written, names⟩ := each style member
    · simp [unset] at fits
    · rw [firstFitting, found]
      exact ⟨color, .inr written, names⟩

/-- The colours of metadata have their own numbers in the map of a theme, and the defaults or the
rules for some scopes write them. -/
structure Colored (map : ColorMap) (rules : List Rule) (scopes : List String) (data : Metadata) :
    Prop where
  foreground : ∃ color, (color = (writtenDefaults rules).foreground ∨
      ∃ scope ∈ scopes, ∃ style ∈ stylesFor rules scope, style.foreground = some color) ∧
    map.Names data.foreground color
  background : ∃ color, (color = (writtenDefaults rules).background ∨
      ∃ scope ∈ scopes, ∃ style ∈ stylesFor rules scope, style.background = some color) ∧
    map.Names data.background color

/-- Metadata that says what the styles of some scopes say has colours that are written for them. -/
theorem Styled.colored {scopes : List String}
    (styled : Styled (ofRules name rules).defaults styles data)
    (each : ∀ style ∈ styles, ∃ scope ∈ scopes, ∃ ancestors,
      (ofRules name rules).matchScope scope ancestors = some style) :
    Colored (ofRules name rules).colorMap rules scopes data where
  foreground := by
    rw [styled.foreground]
    refine firstFitting_names (names_defaults name rules).1 (fun style member => ?_) _
    obtain ⟨scope, among, ancestors, found⟩ := each style member
    obtain ⟨written, held, colors, -⟩ := matchScope_numbered found
    exact colors.imp_right fun ⟨color, writes, names⟩ =>
      ⟨color, ⟨scope, among, written, held, writes⟩, names⟩
  background := by
    rw [styled.background]
    refine firstFitting_names (names_defaults name rules).2 (fun style member => ?_) _
    obtain ⟨scope, among, ancestors, found⟩ := each style member
    obtain ⟨written, held, -, colors⟩ := matchScope_numbered found
    exact colors.imp_right fun ⟨color, writes, names⟩ =>
      ⟨color, ⟨scope, among, written, held, writes⟩, names⟩

/-- Before any scope, metadata says what the defaults say. -/
theorem styled_base (styling : Styling) (themed : styling.theme = ofRules name rules)
    (fits : styling.theme.StylesFit) : Styled styling.theme.defaults [] styling.base := by
  have foreground : styling.base.foreground = Metadata.chosenColor
      styling.theme.defaults.foreground Metadata.unset.foreground largestForeground :=
    Metadata.foreground_set_fits fits.defaults Metadata.unset
  have fontStyle : styling.base.fontStyle =
      styling.theme.defaults.fontStyle.getD Metadata.unset.fontStyle :=
    Metadata.fontStyle_set_fits fits.defaults Metadata.unset
  obtain ⟨first, second⟩ := defaults_ofRules name rules
  have positive := (names_defaults name rules).2.positive
  rw [← themed] at first second positive
  constructor
  · simp [foreground, first, firstFitting, Metadata.chosenColor, largestForeground]
  · have set : styling.theme.defaults.background ≠ 0 := by omega
    have fits : styling.theme.defaults.background ≤ 255 := by omega
    simp [Styling.base, Metadata.background_set, firstFitting, Metadata.chosenColor,
      largestBackground, set, fits]
  · simp [fontStyle, themed, ofRules]
  · simp [Styling.base, Metadata.set]
    rfl

/-- For every theme, languages and lists of scopes pushed onto the scope of a grammar, the metadata says
what the innermost style says among those looked up by the names pushed. Its colours are in the map
with their own numbers. If no name has blanks at its ends, the styles are those of the scopes on the
path. The rules of every document have font styles that fit, by `fits_rulesOf`. -/
theorem path_metadata_inherits (name : Option String) {rules : List Rule}
    (fits : ∀ rule ∈ rules, rule.Fits) (language : Nat)
    (embedded : Table Nat) (scopeName : String) (pushes : List (Option String)) :
    let styling : Styling := ⟨ofRules name rules, language, embedded⟩
    let root := ScopePath.ofGrammar styling scopeName
    let path := pushes.foldl (ScopePath.push styling) root
    let names := ScopePath.pushedNames pushes
    Colored styling.theme.colorMap rules (Text.trim scopeName :: names) path.metadata ∧
      Styled styling.theme.defaults
        (root.stylesPushed styling names ++ root.styles styling.theme) path.metadata ∧
      ((∀ name ∈ names, Text.trim name = name) →
        Styled styling.theme.defaults (path.styles styling.theme) path.metadata) := by
  intro styling root path names
  have same : path = names.foldl (ScopePath.pushOne styling) root := ScopePath.foldl_push pushes root
  have themed : styling.theme.StylesFit := fits_ofRules name fits
  have first : Styled styling.theme.defaults (root.styles styling.theme) root.metadata := by
    have styled := (styled_base styling rfl themed).update themed (Text.trim scopeName) []
    rwa [List.append_nil] at styled
  have styled := ScopePath.styled_foldl themed names first
  rw [← same] at styled
  refine ⟨styled.colored fun style member => ?_, styled, fun trimmed => ?_⟩
  · cases List.mem_append.mp member with
    | inl member =>
      obtain ⟨scope, among, found⟩ := ScopePath.mem_stylesPushed member
      exact ⟨scope, List.mem_cons_of_mem _ among, found⟩
    | inr member => exact ⟨_, List.mem_cons_self, [], Option.mem_toList.mp member⟩
  · rwa [same, ScopePath.styles_foldl trimmed, ← same]

/-- Two scopes at once, of which the outer one has a colour and the inner one a font style. -/
theorem path_metadata_inherits_nested :
    let entries : List Entry := [{ scopes := some ["string"], settings := { foreground := some "#FF0000" } },
      { scopes := some ["string comment"], settings := { fontStyle := some "italic" } }]
    let rules := (rulesOf entries).1
    let styling : Styling := { theme := ofRules none rules }
    let path := (ScopePath.ofGrammar styling "source.x").push styling (some "string.quoted comment")
    rules = [⟨"string", none, 0, none, some "#FF0000", none⟩,
        ⟨"comment", some [⟨false, ⟨"string"⟩⟩], 1, some .italic, none, none⟩] ∧
      (∀ rule ∈ rules, rule.Fits) ∧
      (∀ name ∈ ScopePath.pushedNames [some "string.quoted comment"], Text.trim name = name) ∧
      Styled styling.theme.defaults (path.styles styling.theme) path.metadata := by
  intro entries rules styling path
  have trimmed : ∀ name ∈ ScopePath.pushedNames [some "string.quoted comment"],
      Text.trim name = name := by decide
  have fits : ∀ rule ∈ rules, rule.Fits := fits_rulesOf entries
  exact ⟨by decide +kernel, fits, trimmed, (path_metadata_inherits none fits 0 {} "source.x"
    [some "string.quoted comment"]).2.2 trimmed⟩

/-- A name with a tab at its end has the style of no rule, though the scope on the path has one. -/
theorem blank_hides_style :
    let theme := ofRules none [⟨"k", none, 0, none, some "#FF0000", none⟩]
    let styling : Styling := { theme }
    let path := (ScopePath.ofGrammar styling "source.x").push styling (some "k\t")
    path.names = ["source.x", "k"] ∧ path.styles theme = [⟨none, 3, 0⟩, ⟨none, 0, 0⟩] ∧
      path.metadata.foreground = theme.defaults.foreground ∧
      ¬ Styled theme.defaults (path.styles theme) path.metadata := by
  intro theme styling path
  have styles : path.styles theme = [⟨none, 3, 0⟩, ⟨none, 0, 0⟩] := by decide +kernel
  have unstyled : path.metadata.foreground = 1 := by decide +kernel
  refine ⟨by decide +kernel, styles, unstyled, fun styled => ?_⟩
  have expected := styled.foreground
  rw [unstyled, styles] at expected
  revert expected
  decide

end Paths
end ScopeLexer

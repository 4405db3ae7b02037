import ScopeLexer.Proofs.StyledPaths

/-!
Merging an update into packed metadata gives each field what the update says for it, and leaves a field of
which it says nothing as it is; so an update that says nothing at all changes no bit. Of numbers that are
too large for their field, those of colours leave the field as it is, but that of a language is cut to the
eight bits of its field. A font style that has more than the four bits of its field is not cut: what is too
much of it gets into the foreground. No other field is touched by what is said for another.
-/
namespace ScopeLexer.Style

theorem TokenType.ofCode_code (kind : TokenType) : ofCode kind.code = kind := by
  cases kind <;> rfl

theorem TokenType.code_ofCode {code : Nat} (small : code < 4) : (ofCode code).code = code := by
  match code, small with
  | 0, _ | 1, _ | 2, _ | 3, _ => rfl

/-- One update and then another, as one update. -/
def Update.andThen (first second : Update) : Update where
  language := if second.language ≠ 0 then second.language else first.language
  tokenType := second.tokenType.or first.tokenType
  balanced := second.balanced.or first.balanced
  fontStyle := second.fontStyle.or first.fontStyle
  foreground := Metadata.chosenColor second.foreground first.foreground largestForeground
  background := Metadata.chosenColor second.background first.background largestBackground

namespace Metadata

section Packed

variable (language : Nat) (kind : TokenType) (balanced : Bool) (fontStyle : FontStyle)
  (foreground background : Nat)

@[simp] theorem language_pack :
    (pack language kind balanced fontStyle foreground background).language = language % 0x100 :=
  (field_pack ..).1

@[simp] theorem tokenType_pack :
    (pack language kind balanced fontStyle foreground background).tokenType = kind := by
  rw [tokenType, (field_pack ..).2.1, TokenType.ofCode_code]

end Packed

section Merged

variable (data : Metadata)

/-- The fields are all that there is: packed again, they are the metadata they were read from. -/
theorem pack_fields : pack data.language data.tokenType data.balanced data.fontStyle data.foreground
    data.background = data := by
  have small : data.word.toNat < 2 ^ 32 := data.word.toNat_lt
  have kind : data.tokenType.code = data.field 8 2 :=
    TokenType.code_ofCode (Nat.mod_lt _ (by decide))
  have balance : data.balanced.toNat = data.field 10 1 := by
    have bit : data.field 10 1 < 2 := Nat.mod_lt _ (by decide)
    obtain unset | set : data.field 10 1 = 0 ∨ data.field 10 1 = 1 := by omega
    · rw [balanced, unset]
      rfl
    · rw [balanced, set]
      rfl
  have style : data.fontStyle.toNat = data.field 11 4 := by
    rw [fontStyle, FontStyle.toNat_ofNat]
    exact Nat.mod_mod _ _
  have same : (pack data.language data.tokenType data.balanced data.fontStyle data.foreground
      data.background).word.toNat = data.word.toNat := by
    rw [word_pack, data.fits_fontStyle.excess, Nat.or_zero, kind, balance, style]
    simp only [language, foreground, background, field, Nat.shiftRight_eq_div_pow, Nat.shiftLeft_eq]
    omega
  obtain ⟨word⟩ := data
  exact congrArg Metadata.mk (UInt32.toNat_inj.mp same)

/-- Metadata with the same fields is the same. -/
theorem eq_of_fields {data other : Metadata} (language : data.language = other.language)
    (tokenType : data.tokenType = other.tokenType) (balanced : data.balanced = other.balanced)
    (fontStyle : data.fontStyle = other.fontStyle) (foreground : data.foreground = other.foreground)
    (background : data.background = other.background) : data = other := by
  rw [← data.pack_fields, language, tokenType, balanced, fontStyle, foreground, background,
    other.pack_fields]

variable (update : Update)

theorem language_set : (data.set update).language =
    if update.language = 0 then data.language else update.language % 0x100 := by
  rw [set, language_pack]
  by_cases none : update.language = 0
  · rw [if_pos none, if_neg (not_not_intro none)]
    exact Nat.mod_eq_of_lt (Nat.mod_lt _ (by decide))
  · rw [if_neg none, if_pos none]

theorem tokenType_set : (data.set update).tokenType = update.tokenType.getD data.tokenType := by
  rw [set, tokenType_pack]

theorem balanced_set : (data.set update).balanced = update.balanced.getD data.balanced := by
  rw [set, balanced_pack]

/-- An update that says nothing changes nothing. -/
theorem set_nothing : data.set {} = data := data.pack_fields

end Merged

theorem chosenColor_eq (given held largest : Nat) : chosenColor given held largest =
    if 1 ≤ given ∧ given ≤ largest then given else held := by
  simp [chosenColor, Nat.one_le_iff_ne_zero]

theorem chosenColor_assoc (second first held largest : Nat) :
    chosenColor second (chosenColor first held largest) largest =
      chosenColor (chosenColor second first largest) held largest := by
  by_cases fits : 1 ≤ second ∧ second ≤ largest
  · simp only [chosenColor_eq, if_pos fits]
  · simp only [chosenColor_eq, if_neg fits]

/-- Merging two updates one after the other is merging what they are together, if the first has no font
style that leaves its field. -/
theorem set_set (data : Metadata) {first : Update} (fits : ∀ style ∈ first.fontStyle, style.Fits)
    (second : Update) : (data.set first).set second = data.set (first.andThen second) := by
  apply eq_of_fields
  · simp only [language_set, Update.andThen]
    split <;> simp_all
  · simp only [tokenType_set, Update.andThen, Option.getD_or]
  · simp only [balanced_set, Update.andThen, Option.getD_or]
  · simp only [fontStyle_set, Update.andThen]
    cases second.fontStyle <;> rfl
  · rw [foreground_set, foreground_set_fits fits, chosenColor_assoc, foreground_set]
    cases given : second.fontStyle with
    | some style => simp only [Update.andThen, given, Option.some_or]
    | none =>
      cases held : first.fontStyle with
      | none => simp only [Update.andThen, given, held, Option.none_or]
      | some style =>
        have excess := (fits style held).excess
        simp only [Update.andThen, given, held, Option.none_or, Option.map_some, Option.getD_some,
          excess, Option.map_none, Option.getD_none]
  · simp only [background_set, Update.andThen, chosenColor_assoc]

/-- Merging an update into metadata, whatever both are. Where nothing is given for a field, it is what it
held before, and a kind, a balance and a colour that fits its field are held exactly as they are given; a
colour that does not fit counts as not given. A language below 256 is held exactly too, but of a larger one
the field holds the lowest eight bits. Of a font style the field holds the lowest four bits, which is all of
a style that fits, and the bits beyond them are added to the foreground, the one field that anything given
for another can change. Where nothing is given at all, no bit changes. -/
theorem fields_exact_or_kept (data : Metadata) (update : Update) :
    let after := data.set update
    after.language = (if update.language = 0 then data.language else update.language % 256) ∧
      after.tokenType = update.tokenType.getD data.tokenType ∧
      after.balanced = update.balanced.getD data.balanced ∧
      after.fontStyle = (update.fontStyle.map fun style => .ofNat style.toNat).getD data.fontStyle ∧
      after.foreground = ((if 1 ≤ update.foreground ∧ update.foreground ≤ 511 then update.foreground
        else data.foreground) ||| (update.fontStyle.map (·.toNat / 16)).getD 0) ∧
      after.background = (if 1 ≤ update.background ∧ update.background ≤ 255 then update.background
        else data.background) ∧
      ((∀ style ∈ update.fontStyle, style.Fits) →
        after.fontStyle = update.fontStyle.getD data.fontStyle ∧
        after.foreground = if 1 ≤ update.foreground ∧ update.foreground ≤ 511 then update.foreground
          else data.foreground) ∧
      data.set {} = data := by
  intro after
  have foreground := data.foreground_set update
  have background := data.background_set update
  rw [chosenColor_eq] at foreground background
  refine ⟨data.language_set update, data.tokenType_set update, data.balanced_set update,
    data.fontStyle_set update, foreground, background, fun fits => ?_, data.set_nothing⟩
  have exact := data.foreground_set_fits fits
  rw [chosenColor_eq] at exact
  exact ⟨data.fontStyle_set_fits fits, exact⟩

/-- Bold comes in and the foreground stays. -/
theorem fields_exact_or_kept_bold :
    let data := unset.set { language := 5, foreground := 7 }
    let update : Update := { fontStyle := some .bold, background := 3 }
    (∀ style ∈ update.fontStyle, style.Fits) ∧
      (data.set update).fontStyle = .bold ∧ (data.set update).foreground = 7 := by
  intro data update
  have fits : ∀ style ∈ update.fontStyle, style.Fits :=
    fun _ given => Option.some.inj given ▸ by decide
  obtain ⟨fontStyle, foreground⟩ := (fields_exact_or_kept data update).2.2.2.2.2.2.1 fits
  have held : data.foreground = 7 := by decide
  exact ⟨fits, fontStyle, foreground.trans held⟩

/-- A style of one bit that is none of the four gets into the foreground. -/
example : unset.foreground = 0 ∧ (unset.set { fontStyle := some ⟨16⟩ }).foreground = 1 := by decide

/-- A language that is too large for its field takes the place of the one that is held there, cut to
nothing. A foreground that is too large does not. -/
theorem wide_language_is_cut :
    let data := unset.set { language := 5, foreground := 7 }
    let after := data.set { language := 256, foreground := 512 }
    data.language = 5 ∧ after.language = 0 ∧
      ¬ (after.language = 256 ∨ after.language = data.language) ∧
      after.foreground = data.foreground := by
  decide

end Metadata
end ScopeLexer.Style

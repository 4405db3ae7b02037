import ScopeLexer.Proofs.ThemeLevels

/-!
Which texts are colours. Meant are a hash and three, four, six or eight hexadecimal digits. The reader
takes these and, of the texts with a plus sign, those in which a sign stands for the first digit of a
component of two; so it is exact for texts without a sign. A theme checks its colours by the reader and
keeps them in capitals, so what is no colour does not get into its colour map, but a text with a sign
does.
-/
namespace ScopeLexer

open Style

namespace Style.Color

section Readings

/-- A hexadecimal digit, small or capital. -/
def Digit (c : Char) : Prop := ('0' ≤ c ∧ c ≤ '9') ∨ ('a' ≤ c ∧ c ≤ 'f') ∨ ('A' ≤ c ∧ c ≤ 'F')

instance : DecidablePred Digit := fun _ => inferInstanceAs (Decidable (_ ∨ _ ∨ _))

/-- A component as it is taken. -/
inductive Component : List Char → Prop
  | one {c : Char} (digit : Digit c) : Component [c]
  | two {high low : Char} (first : Digit high) (second : Digit low) : Component [high, low]
  | signed {low : Char} (digit : Digit low) : Component ['+', low]

/-- Three or four components of one width. -/
def Parts (digits : List Char) : Prop :=
  ∃ width parts, digits = List.flatten parts ∧ (parts.length = 3 ∨ parts.length = 4) ∧
    ∀ part ∈ parts, Component part ∧ part.length = width

/-- A colour as it is taken: a hash and its components. -/
def Accepted (text : String) : Prop := ∃ digits, text.toList = '#' :: digits ∧ Parts digits

/-- A colour as it is meant to be written: a hash and three, four, six or eight digits. -/
def Written (text : String) : Prop :=
  ∃ digits, text.toList = '#' :: digits ∧
    (digits.length = 3 ∨ digits.length = 4 ∨ digits.length = 6 ∨ digits.length = 8) ∧
    ∀ c ∈ digits, Digit c

end Readings

section Components

@[simp] theorem exists_ok_iff (result : Except ε α) :
    (∃ value, result = .ok value) ↔ result.isOk = true := by
  cases result <;> simp [Except.isOk, Except.toBool]

@[simp] theorem isOk_map (f : α → β) (result : Except ε α) : (f <$> result).isOk = result.isOk := by
  cases result <;> rfl

@[simp] theorem isOk_bind {first : Except ε α} {next : α → Except ε β} :
    (first >>= next).isOk = true ↔ ∃ value, first = .ok value ∧ (next value).isOk = true := by
  cases first with
  | error fault => simp [bind, Except.bind, Except.isOk, Except.toBool]
  | ok value => simp [bind, Except.bind]

theorem digit?_isSome (c : Char) : (digit? c).isSome = true ↔ Digit c := by
  have decimal : (c.val ≥ '0'.val ∧ c.val ≤ '9'.val) = ('0' ≤ c ∧ c ≤ '9') := rfl
  simp only [digit?, Digit, Char.isDigit, Bool.and_eq_true, decide_eq_true_eq]
  grind

@[simp] theorem doubled_isOk (c : Char) : (doubled c).isOk = true ↔ Component [c] := by
  have digit : Component [c] ↔ (digit? c).isSome = true := by
    rw [digit?_isSome]
    exact ⟨fun | .one digit => digit, .one⟩
  rw [digit, doubled, component]
  cases digit? c <;> simp [Except.isOk, Except.toBool]

@[simp] theorem paired_isOk (high low : Char) :
    (paired high low).isOk = true ↔ Component [high, low] := by
  -- A sign is read before digits are, so what it stands for is told apart first.
  by_cases signed : high = '+'
  · subst signed
    have digit : Component ['+', low] ↔ (digit? low).isSome = true := by
      rw [digit?_isSome]
      exact ⟨fun | .two _ digit => digit | .signed digit => digit, .signed⟩
    rw [digit, paired, component]
    cases digit? low <;> simp [Except.isOk, Except.toBool]
  · have digits : Component [high, low] ↔
        (digit? high).isSome = true ∧ (digit? low).isSome = true := by
      rw [digit?_isSome, digit?_isSome]
      refine ⟨?_, fun ⟨first, second⟩ => .two first second⟩
      rintro (_ | ⟨first, second⟩ | _)
      · exact ⟨first, second⟩
      · exact absurd rfl signed
    rw [digits, paired]
    cases first : digit? high <;> cases second : digit? low <;>
      simp [component, first, second, Except.isOk, Except.toBool]

theorem Component.width (component : Component part) : part.length = 1 ∨ part.length = 2 := by
  cases component with
  | one => exact .inl rfl
  | two => exact .inr rfl
  | signed => exact .inr rfl

/-- A component holds digits, but for a plus sign at its start. -/
theorem Component.digit_or_plus (component : Component part) (member : c ∈ part) :
    Digit c ∨ c = '+' := by
  cases component with
  | one digit => exact .inl (List.mem_singleton.mp member ▸ digit)
  | two first second =>
    rcases List.mem_pair.mp member with rfl | rfl
    · exact .inl first
    · exact .inl second
  | signed digit =>
    rcases List.mem_pair.mp member with rfl | rfl
    · exact .inr rfl
    · exact .inl digit

theorem Parts.digit_or_plus (parts : Parts digits) (member : c ∈ digits) : Digit c ∨ c = '+' := by
  obtain ⟨width, parts, rfl, -, each⟩ := parts
  obtain ⟨part, among, member⟩ := List.mem_flatten.mp member
  exact (each part among).1.digit_or_plus member

theorem Parts.count (parts : Parts digits) :
    digits.length = 3 ∨ digits.length = 4 ∨ digits.length = 6 ∨ digits.length = 8 := by
  obtain ⟨width, parts, rfl, count, each⟩ := parts
  obtain ⟨part, member⟩ := List.exists_mem_of_length_pos (l := parts) (by omega)
  have size := (each part member).1.width
  rw [(each part member).2] at size
  have same : parts.map List.length = List.replicate parts.length width :=
    List.map_eq_replicate_iff.mpr fun part member => (each part member).2
  rw [List.length_flatten, same, List.sum_replicate_nat]
  rcases count with count | count <;> rcases size with size | size <;> simp [count, size]

theorem Digit.isAscii (digit : Digit c) : c.val < 0x80 := by
  rcases digit with ⟨-, most⟩ | ⟨-, most⟩ | ⟨-, most⟩ <;>
    exact UInt32.lt_of_le_of_lt most (by decide)

theorem Parts.isAscii (parts : Parts digits) : digits.all (·.val < 0x80) = true := by
  rw [List.all_eq_true]
  intro c member
  rw [decide_eq_true_eq]
  rcases parts.digit_or_plus member with digit | rfl
  · exact digit.isAscii
  · decide

end Components

section Acceptance

/-- What is read as a colour consists of three or four components of one width. -/
theorem parts_of_isOk (read : (ofDigits digits).isOk = true) : Parts digits := by
  fun_cases ofDigits digits with
  | case1 r g b => exact ⟨1, [[r], [g], [b]], rfl, .inl rfl, by simpa [ofDigits] using read⟩
  | case2 r g b a =>
    exact ⟨1, [[r], [g], [b], [a]], rfl, .inr rfl, by simpa [ofDigits] using read⟩
  | case3 r r' g g' b b' =>
    exact ⟨2, [[r, r'], [g, g'], [b, b']], rfl, .inl rfl, by simpa [ofDigits] using read⟩
  | case4 r r' g g' b b' a a' =>
    exact ⟨2, [[r, r'], [g, g'], [b, b'], [a, a']], rfl, .inr rfl, by simpa [ofDigits] using read⟩
  | case5 digits three four six eight =>
    rw [ofDigits] at read
    · cases read
    all_goals assumption

/-- Three or four components of one width are read as a colour. -/
theorem isOk_of_parts (parts : Parts digits) : (ofDigits digits).isOk = true := by
  obtain ⟨width, parts, rfl, count, each⟩ := parts
  have narrow (part) (member : part ∈ parts) (one : width = 1) :
      ∃ c, part = [c] ∧ Component [c] := by
    obtain ⟨c, rfl⟩ := List.length_eq_one_iff.mp ((each part member).2.trans one)
    exact ⟨c, rfl, (each _ member).1⟩
  have wide (part) (member : part ∈ parts) (two : width = 2) :
      ∃ high low, part = [high, low] ∧ Component [high, low] := by
    obtain ⟨high, low, rfl⟩ := List.length_eq_two.mp ((each part member).2.trans two)
    exact ⟨high, low, rfl, (each _ member).1⟩
  have size : width = 1 ∨ width = 2 := by
    obtain ⟨part, member⟩ := List.exists_mem_of_length_pos (l := parts) (by omega)
    rw [← (each part member).2]
    exact (each part member).1.width
  match parts, count, size with
  | [p, q, r], _, .inl one =>
    obtain ⟨a, rfl, first⟩ := narrow p (by simp) one
    obtain ⟨b, rfl, second⟩ := narrow q (by simp) one
    obtain ⟨c, rfl, third⟩ := narrow r (by simp) one
    simp [ofDigits, first, second, third]
  | [p, q, r], _, .inr two =>
    obtain ⟨a, a', rfl, first⟩ := wide p (by simp) two
    obtain ⟨b, b', rfl, second⟩ := wide q (by simp) two
    obtain ⟨c, c', rfl, third⟩ := wide r (by simp) two
    simp [ofDigits, first, second, third]
  | [p, q, r, s], _, .inl one =>
    obtain ⟨a, rfl, first⟩ := narrow p (by simp) one
    obtain ⟨b, rfl, second⟩ := narrow q (by simp) one
    obtain ⟨c, rfl, third⟩ := narrow r (by simp) one
    obtain ⟨d, rfl, fourth⟩ := narrow s (by simp) one
    simp [ofDigits, first, second, third, fourth]
  | [p, q, r, s], _, .inr two =>
    obtain ⟨a, a', rfl, first⟩ := wide p (by simp) two
    obtain ⟨b, b', rfl, second⟩ := wide q (by simp) two
    obtain ⟨c, c', rfl, third⟩ := wide r (by simp) two
    obtain ⟨d, d', rfl, fourth⟩ := wide s (by simp) two
    simp [ofDigits, first, second, third, fourth]

/-- The texts taken as colours are the accepted ones. -/
theorem isHex_iff (text : String) : isHex text = true ↔ Accepted text := by
  rw [isHex, ofHex, Accepted]
  split
  · next digits read =>
    have own : (∃ others, text.toList = '#' :: others ∧ Parts others) ↔ Parts digits := by
      simp [read]
    rw [own]
    split
    · exact ⟨parts_of_isOk, isOk_of_parts⟩
    · next wide => exact iff_of_false Bool.false_ne_true fun parts => wide parts.isAscii
  · next other =>
    exact iff_of_false Bool.false_ne_true fun ⟨digits, read, _⟩ => other digits read

theorem Written.isHex (written : Written text) : isHex text = true := by
  obtain ⟨digits, read, count, each⟩ := written
  refine (isHex_iff text).mpr ⟨digits, read, parts_of_isOk ?_⟩
  match digits, count with
  | [r, g, b], _ => simp_all [ofDigits, Component.one]
  | [r, g, b, a], _ => simp_all [ofDigits, Component.one]
  | [r, r', g, g', b, b'], _ => simp_all [ofDigits, Component.two]
  | [r, r', g, g', b, b', a, a'], _ => simp_all [ofDigits, Component.two]

/-- The colours that are taken but not meant are those with a sign. -/
theorem written_iff (text : String) : Written text ↔ isHex text = true ∧ '+' ∉ text.toList := by
  constructor
  · intro written
    refine ⟨written.isHex, ?_⟩
    obtain ⟨digits, read, -, each⟩ := written
    rw [read, List.mem_cons]
    rintro (hash | member)
    · exact absurd hash (by decide)
    · exact absurd (each '+' member) (by decide)
  · rintro ⟨taken, unsigned⟩
    obtain ⟨digits, read, parts⟩ := (isHex_iff text).mp taken
    refine ⟨digits, read, parts.count, fun c member => ?_⟩
    refine (parts.digit_or_plus member).resolve_right ?_
    rintro rfl
    exact unsigned (read ▸ List.mem_cons_of_mem _ member)

end Acceptance

section Writing

theorem digit?_hexDigit {value : Nat} (small : value < 16) :
    digit? (hexDigit value) = some value := by
  have each : ∀ value < 16, digit? (hexDigit value) = some value := by decide
  exact each value small

theorem digit_hexDigit {value : Nat} (small : value < 16) : Digit (hexDigit value) := by
  rw [← digit?_isSome, digit?_hexDigit small]
  rfl

theorem halves_lt (value : UInt8) : value.toNat / 16 < 16 ∧ value.toNat % 16 < 16 := by
  have := value.toNat_lt
  omega

theorem paired_hexPair (value : UInt8) :
    paired (hexDigit (value.toNat / 16)) (hexDigit (value.toNat % 16)) = .ok value := by
  obtain ⟨high, low⟩ := halves_lt value
  have unsigned : hexDigit (value.toNat / 16) ≠ '+' := by
    intro plus
    exact absurd (plus ▸ digit_hexDigit high) (by decide)
  have whole : value.toNat / 16 * 16 + value.toNat % 16 = value.toNat := by omega
  simp [paired, component, digit?_hexDigit, high, low, whole]

/-- A colour written out is read back as itself. -/
theorem ofHex_toHex (color : Color) : ofHex color.toHex = .ok color := by
  obtain ⟨red, green, blue, alpha⟩ := color
  by_cases clear : alpha < 255
  · simp [ofHex, toHex, clear, hexPair, ofDigits, paired_hexPair, halves_lt,
      (digit_hexDigit _).isAscii]
    rfl
  · have full : alpha = 255 := by
      have bound := alpha.toNat_lt
      have reached : 255 ≤ alpha.toNat := UInt8.le_iff_toNat_le.mp (UInt8.not_lt.mp clear)
      exact UInt8.toNat_inj.mp (by simp only [UInt8.reduceToNat]; omega)
    subst full
    simp [ofHex, toHex, hexPair, ofDigits, paired_hexPair, halves_lt,
      (digit_hexDigit _).isAscii]
    rfl

end Writing
section Capitals

/-- The capitals of an ASCII text. -/
theorem toList_toUpper (ascii : text.toList.all (·.val < 0x80) = true) :
    (Text.toUpper text).toList = text.toList.map Char.toUpper := by
  rw [Text.toUpper, String.toList_ofList, List.map_eq_flatMap]
  apply List.flatMap_congr
  intro c member
  exact if_pos (of_decide_eq_true (List.all_eq_true.mp ascii c member))

theorem Digit.toUpper (digit : Digit c) : Digit c.toUpper := by
  have each : ∀ code < 0x80, Digit (Char.ofNat code) → Digit (Char.ofNat code).toUpper := by decide
  have small := UInt32.lt_iff_toNat_lt.mp digit.isAscii
  rw [← Char.ofNat_toNat c] at digit ⊢
  exact each c.toNat small digit

theorem Component.toUpper (component : Component part) : Component (part.map Char.toUpper) := by
  cases component with
  | one digit => exact .one digit.toUpper
  | two first second => exact .two first.toUpper second.toUpper
  | signed digit => exact .signed digit.toUpper

/-- A hash and ASCII characters in capitals. -/
theorem toList_toUpper_hash (read : text.toList = '#' :: digits)
    (ascii : digits.all (·.val < 0x80) = true) :
    (Text.toUpper text).toList = '#' :: digits.map Char.toUpper := by
  rw [toList_toUpper (by rw [read]; exact ascii), read]
  rfl

theorem Accepted.toUpper (accepted : Accepted text) : Accepted (Text.toUpper text) := by
  obtain ⟨digits, read, parts⟩ := accepted
  refine ⟨_, toList_toUpper_hash read parts.isAscii, ?_⟩
  obtain ⟨width, parts, rfl, count, each⟩ := parts
  refine ⟨width, parts.map (List.map Char.toUpper), List.map_flatten, by simpa using count, ?_⟩
  intro capitals member
  obtain ⟨part, among, rfl⟩ := List.mem_map.mp member
  exact ⟨(each part among).1.toUpper, by simpa using (each part among).2⟩

theorem Written.toUpper (written : Written text) : Written (Text.toUpper text) := by
  obtain ⟨digits, read, count, each⟩ := written
  have ascii : digits.all (·.val < 0x80) = true :=
    List.all_eq_true.mpr fun c member => decide_eq_true (each c member).isAscii
  refine ⟨_, toList_toUpper_hash read ascii, by simpa using count, ?_⟩
  intro capital member
  obtain ⟨c, among, rfl⟩ := List.mem_map.mp member
  exact (each c among).toUpper

end Capitals
end Style.Color

namespace Style.ColorMap

/-- The colours of a map are the capitals of certain texts. -/
def Capitals (map : ColorMap) (Given : String → Prop) : Prop :=
  ∀ color ∈ map.known, ∃ text, Given text ∧ Text.toUpper text = color

/-- Giving a number to a given colour leaves given colours, in capitals, in the map. -/
theorem Capitals.number {map : ColorMap} {Given : String → Prop} (capitals : map.Capitals Given)
    (started : map.Started) (given : ∀ text, color = some text → Given text) :
    (map.number color).2.Capitals Given := by
  cases color with
  | none => exact capitals
  | some text =>
    intro capital member
    rw [known_number started] at member
    split at member
    · exact capitals capital member
    · cases List.mem_append.mp member with
      | inl before => exact capitals capital before
      | inr last => exact ⟨text, given text rfl, (List.mem_singleton.mp last).symm⟩

end Style.ColorMap

namespace Theme

/-- The colours that a rule sets are certain texts. -/
def Rule.Sets (rule : Rule) (Given : String → Prop) : Prop :=
  (∀ text, rule.foreground = some text → Given text) ∧
    ∀ text, rule.background = some text → Given text

section Sources

variable {Given : String → Prop} {rules : List Rule}

theorem capitals_insertRule {map : ColorMap} (trie : Trie) (capitals : map.Capitals Given)
    (started : map.Started) {rule : Rule} (sets : rule.Sets Given) :
    (insertRule (map, trie) rule).1.Capitals Given :=
  (capitals.number started sets.1).number (ColorMap.number_started started _) sets.2

theorem capitals_foldl {map : ColorMap} (trie : Trie) (capitals : map.Capitals Given)
    (started : map.Started) (sets : ∀ rule ∈ rules, rule.Sets Given) :
    (rules.foldl insertRule (map, trie)).1.Capitals Given := by
  induction rules generalizing map trie with
  | nil => exact capitals
  | cons rule rules ih =>
    obtain ⟨here, rest⟩ := List.forall_mem_cons.mp sets
    exact ih (insertRule (map, trie) rule).2 (capitals_insertRule trie capitals started here)
      (putIn_insertRule trie started rule).1.1 rest

/-- The defaults of a theme are given colours, if its rules set given ones. -/
theorem given_defaults (defaults : Defaults) (sets : ∀ rule ∈ rules, rule.Sets Given)
    (foreground : Given defaults.foreground) (background : Given defaults.background) :
    Given (rules.foldl Defaults.apply defaults).foreground ∧
      Given (rules.foldl Defaults.apply defaults).background := by
  induction rules generalizing defaults with
  | nil => exact ⟨foreground, background⟩
  | cons rule rules ih =>
    obtain ⟨here, rest⟩ := List.forall_mem_cons.mp sets
    apply ih (defaults.apply rule) rest
    · rw [Defaults.apply]
      cases set : rule.foreground with
      | none => exact foreground
      | some text => exact here.1 text set
    · rw [Defaults.apply]
      cases set : rule.background with
      | none => exact background
      | some text => exact here.2 text set

/-- The colour map of a theme holds what its rules set, in capitals. -/
theorem capitals_ofRules (name : Option String) (sets : ∀ rule ∈ rules, rule.Sets Given)
    (foreground : Given "#000000") (background : Given "#FFFFFF") :
    (ofRules name rules).colorMap.Capitals Given := by
  have sorted (rule) (member : rule ∈ sortRules rules) : rule.Sets Given :=
    sets rule (List.mem_mergeSort.mp member)
  have unscoped (rule) (member : rule ∈ (sortRules rules).takeWhile (·.scope = "")) :
      rule.Sets Given := sorted rule ((List.takeWhile_sublist _).subset member)
  have defaults := given_defaults {} unscoped foreground background
  have started : ({} : ColorMap).Started := by simp [ColorMap.Started]
  have none : ({} : ColorMap).Capitals Given := by simp [ColorMap.Capitals, ColorMap.known]
  rw [colorMap_ofRules]
  apply capitals_foldl .empty _ (startMap_started rules)
  · exact fun rule member => sorted rule ((List.dropWhile_sublist _).subset member)
  · refine (none.number started ?_).number (ColorMap.number_started started _) ?_
    · rintro text ⟨⟩
      exact defaults.1
    · rintro text ⟨⟩
      exact defaults.2

end Sources
theorem unlessInherited_eq_some (color : Option String) (text : String) :
    unlessInherited color = some text ↔ color = some text ∧ text ≠ "inherit" := by
  rw [unlessInherited.eq_def]
  split <;> grind

/-- What a rule's settings give is what is taken of what they say. -/
theorem validColor_eq_some (warn : String → Warning) (color : Option String) (text : String) :
    (validColor warn color).1 = some text ↔ color = some text ∧ Color.isHex text = true := by
  have inherit : Color.isHex "inherit" = false := by decide
  have own := unlessInherited_eq_some color
  rw [validColor]
  cases read : unlessInherited color with
  | none => grind
  | some written => 
    dsimp only
    split <;> grind

/-- An entry of a document has a colour in its settings. -/
def Document.Writes (document : Document) (text : String) : Prop :=
  ∃ entry ∈ document.entries,
    entry.settings.foreground = some text ∨ entry.settings.background = some text

/-- Rules read from a document set colours that the document writes and that are accepted. -/
theorem sets_rulesOf {document : Document} (member : rule ∈ (rulesOf document.entries).1) :
    rule.Sets fun text => document.Writes text ∧ Color.isHex text = true := by
  obtain ⟨part, among, member⟩ := List.mem_flatMap.mp member
  obtain ⟨index, bound, rfl⟩ := List.mem_mapIdx.mp among
  obtain ⟨selector, -, rfl⟩ := List.mem_map.mp member
  have entry := List.getElem_mem bound
  constructor
  · intro text set
    obtain ⟨written, valid⟩ := (validColor_eq_some ..).mp set
    exact ⟨⟨_, entry, .inl written⟩, valid⟩
  · intro text set
    obtain ⟨written, valid⟩ := (validColor_eq_some ..).mp set
    exact ⟨⟨_, entry, .inr written⟩, valid⟩

/-- The colours of a theme are taken ones in capitals: those of its document and two of its own. -/
theorem capitals_ofDocument (document : Document) : (ofDocument document).1.colorMap.Capitals
    fun text => Color.isHex text = true ∧ (Color.Written text ∨ document.Writes text) := by
  have own {text : String} (taken : Color.isHex text = true) (unsigned : '+' ∉ text.toList) :
      Color.isHex text = true ∧ (Color.Written text ∨ document.Writes text) :=
    ⟨taken, .inl ((Color.written_iff text).mpr ⟨taken, unsigned⟩)⟩
  refine capitals_ofRules document.name ?_ (own (by decide) (by decide)) (own (by decide) (by decide))
  intro rule member
  obtain ⟨foreground, background⟩ := sets_rulesOf member
  refine ⟨fun text set => ?_, fun text set => ?_⟩
  · exact ⟨(foreground text set).2, .inr (foreground text set).1⟩
  · exact ⟨(background text set).2, .inr (background text set).1⟩

end Theme

namespace Style.Color

/-- A text is taken as a colour exactly if it is a hash and three or four components of one width, each
one digit or each two of which the first may be a plus sign. Those without a sign are the colours as they
are meant to be written. Every colour is read as itself where it is written out, and a theme's colour map
has such colours only, those with a sign from entries of the document that write them. -/
theorem hex_exact_without_sign (text : String) (color : Color) (document : Theme.Document) :
    (isHex text = true ↔ Accepted text) ∧
      (Written text ↔ isHex text = true ∧ '+' ∉ text.toList) ∧
      ofHex color.toHex = .ok color ∧
      ∀ capitals ∈ (Theme.ofDocument document).1.colorMap.colors.toList.drop 1,
        isHex capitals = true ∧ (Written capitals ∨ ∃ given, document.Writes given ∧
          isHex given = true ∧ '+' ∈ given.toList ∧ Text.toUpper given = capitals) := by
  refine ⟨isHex_iff text, written_iff text, ofHex_toHex color, ?_⟩
  intro capitals member
  obtain ⟨given, ⟨taken, source⟩, rfl⟩ := Theme.capitals_ofDocument document capitals member
  refine ⟨(isHex_iff _).mpr ((isHex_iff given).mp taken).toUpper, ?_⟩
  by_cases signed : '+' ∈ given.toList
  · have unwritten : ¬ Written given := fun written => ((written_iff given).mp written).2 signed
    exact .inr ⟨given, source.resolve_left unwritten, taken, signed, rfl⟩
  · exact .inl ((written_iff given).mpr ⟨taken, signed⟩).toUpper

/-- A text with signs for digits is taken as a colour and gets into a theme. -/
theorem signs_for_digits_accepted :
    ofHex "#+1+2+3" = .ok ⟨1, 2, 3, 255⟩ ∧ ¬ Written "#+1+2+3" ∧
      "#+1+2+3" ∈ (Theme.ofDocument { settings := some [
        { scopes := some ["a"], settings := { foreground := some "#+1+2+3" } }] }
          ).1.colorMap.colors.toList := by
  refine ⟨by decide, fun written => ?_, by decide +kernel⟩
  exact ((written_iff _).mp written).2 (by decide)

end Style.Color
end ScopeLexer

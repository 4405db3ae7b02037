import ScopeLexer.Proofs.AnchorFlavours
import ScopeLexer.Proofs.EscapedText

/-!
Patterns as they are written. A pattern is put together from the elements that are documented of the syntax:
characters, classes, conditions, groups, repetitions and branches. What can be repeated takes a character, so
that the rules tell apart the branches that do. Where a condition is replaced by a character, the pattern is
put together in the same way, with that character for the condition: outside classes and look-behinds a
character may stand wherever a condition may.
-/
namespace ScopeLexer

open Pattern Regex

namespace Pattern

/-- Whether a text does not end inside an escape. -/
def endsWhole : List Char → Bool
  | [] => true
  | ['\\'] => false
  | '\\' :: _ :: rest => endsWhole rest
  | _ :: rest => endsWhole rest

variable {text : List Char} {c : Char}

theorem endsWhole_plain (plain : c ≠ '\\') (rest : List Char) : endsWhole (c :: rest) = endsWhole rest :=
  endsWhole.eq_4 c rest (fun same _ => plain same) (fun _ _ same _ => plain same)

/-- Behind a text that ends whole another one is read as it would be alone. -/
theorem endsWhole_append (whole : endsWhole text = true) (rest : List Char) :
    endsWhole (text ++ rest) = endsWhole rest := by
  fun_induction endsWhole text with
  | case1 => rfl
  | case2 => cases whole
  | case3 c text ih => exact ih whole
  | case4 c text alone other ih =>
    have plain : c ≠ '\\' := by
      rintro rfl
      cases text with
      | nil => exact alone rfl rfl
      | cons letter text => exact other letter text rfl rfl
    rw [List.cons_append, endsWhole_plain plain, ih whole]

theorem replaceChars_plain (flavour : Flavour) (plain : c ≠ '\\') (rest : List Char) :
    flavour.replaceChars (c :: rest) = c :: flavour.replaceChars rest :=
  Flavour.replaceChars.eq_4 flavour c rest (fun same _ => plain same) (fun _ _ same _ => plain same)

/-- A text that ends whole is replaced on its own: no escape reaches across its end. -/
theorem replaceChars_append (flavour : Flavour) (whole : endsWhole text = true) (rest : List Char) :
    flavour.replaceChars (text ++ rest) = flavour.replaceChars text ++ flavour.replaceChars rest := by
  fun_induction endsWhole text with
  | case1 => rfl
  | case2 => cases whole
  | case3 c text ih =>
    simp only [List.cons_append, Flavour.replaceChars, ih whole]
    split <;> rfl
  | case4 c text alone other ih =>
    have plain : c ≠ '\\' := by
      rintro rfl
      cases text with
      | nil => exact alone rfl rfl
      | cons letter text => exact other letter text rfl rfl
    rw [List.cons_append, replaceChars_plain flavour plain, replaceChars_plain flavour plain, ih whole,
      List.cons_append]

/-- A replacement is shorter than the condition. -/
theorem length_replaceChars (flavour : Flavour) (text : List Char) :
    (flavour.replaceChars text).length ≤ text.length := by
  fun_induction Flavour.replaceChars flavour text with
  | case1 | case2 => exact Nat.le_refl _
  | case3 | case4 | case5 =>
    simp only [List.length_cons]
    omega

end Pattern

namespace Regex

/-- Whether a character may mean something outside classes where no comments are allowed. -/
def isMark (c : Char) : Bool :=
  ['\\', '|', '(', ')', '[', '\x7b', '.', '*', '+', '?', '^', '$'].contains c

/-- Whether a character may mean something in a class. -/
def hasClassMeaning (c : Char) : Bool := ['\\', '[', ']', '-', '^', '&'].contains c

/-- The letters that stand for a set of characters behind a backslash. -/
def namedSets : List Char := ['w', 'W', 's', 'S', 'd', 'D', 'h', 'H']

/-- The letters that stand for a control character behind a backslash. -/
def controls : List Char := ['t', 'n', 'r', 'f', 'v', 'a', 'e']

/-- The members of a class, as they are written: characters, sets and ranges. -/
inductive Members : List Char → Prop where
  | nothing : Members []
  | plain (stands : hasClassMeaning c = false) (rest : Members text) : Members (c :: text)
  | escaped (loses : losesMeaning c = true) (rest : Members text) : Members ('\\' :: c :: text)
  | named (known : c ∈ namedSets) (rest : Members text) : Members ('\\' :: c :: text)
  | range (stands : hasClassMeaning c = false) (standsLast : hasClassMeaning last = false)
    (le : c.toNat ≤ last.toNat) (rest : Members text) : Members (c :: '-' :: last :: text)

/-- What takes one character, as it is written. -/
inductive Single : List Char → Prop where
  | plain (stands : isMark c = false) : Single [c]
  | escaped (loses : losesMeaning c = true) : Single ['\\', c]
  | control (known : c ∈ controls) : Single ['\\', c]
  | any : Single ['.']
  | named (known : c ∈ namedSets) : Single ['\\', c]
  | oneOf (members : Members text) (some : text ≠ []) : Single ('[' :: (text ++ [']']))
  | noneOf (members : Members text) (some : text ≠ []) : Single ('[' :: '^' :: (text ++ [']']))

/-- The conditions on a place in a text that can also be looked for behind one. -/
def behindConditions : List (List Char) :=
  [['^'], ['$'], ['\\', 'A'], ['\\', 'G'], ['\\', 'b'], ['\\', 'B']]

/-- The conditions on a place in a text. -/
def conditions : List (List Char) := ['\\', 'Z'] :: behindConditions

def marks : List (List Char) :=
  ["*", "+", "?", "*?", "+?", "??", "*+", "++", "?+"].map String.toList

/-- What groups start with that take what is in them: the one of a capture, and the one of a group that
gives nothing back. -/
def groupOpenings : List (List Char) := ["(", "(?>"].map String.toList

def aheadOpenings : List (List Char) := ["(?=", "(?!"].map String.toList

def behindOpenings : List (List Char) := ["(?<=", "(?<!"].map String.toList

/-- What a part of a pattern is: items one after the other, or branches with bars between them. Of a firm
branch, or of each of the branches, at least one item takes a character or is a group. -/
inductive Shape where
  | branch (firm : Bool)
  | branches (firm : Bool)

/-- A part of a pattern, as it is written. -/
inductive Written : Shape → List Char → Prop where
  | nothing : Written (.branch false) []
  | one (single : Single text) : Written (.branch firm) text
  | repeated (single : Single text) (known : mark ∈ marks) : Written (.branch firm) (text ++ mark)
  | condition (known : text ∈ conditions) : Written (.branch false) text
  | behind (known : opening ∈ behindOpenings) (spelled : spelled? text = some chars) :
    Written (.branch false) (opening ++ (text ++ [')']))
  | behindOne (known : opening ∈ behindOpenings) (single : Single text) :
    Written (.branch false) (opening ++ (text ++ [')']))
  | behindCondition (known : opening ∈ behindOpenings) (stands : text ∈ behindConditions) :
    Written (.branch false) (opening ++ (text ++ [')']))
  | ahead (known : opening ∈ aheadOpenings) (body : Written (.branches false) text) :
    Written (.branch false) (opening ++ (text ++ [')']))
  | group (known : opening ∈ groupOpenings) (body : Written (.branches false) text) :
    Written (.branch firm) (opening ++ (text ++ [')']))
  | repeatedGroup (known : opening ∈ groupOpenings) (body : Written (.branches false) text)
    (knownMark : mark ∈ marks) : Written (.branch firm) (opening ++ (text ++ ')' :: mark))
  | plain (body : Written (.branches firm) text) :
    Written (.branch firm) ("(?:".toList ++ (text ++ [')']))
  | repeatedPlain (body : Written (.branches true) text) (known : mark ∈ marks) :
    Written (.branch firm) ("(?:".toList ++ (text ++ ')' :: mark))
  | next (first : Written (.branch firm) text) (second : Written (.branch other) more) :
    Written (.branch (firm || other)) (text ++ more)
  | none : Written (.branches firm) []
  | whole (only : Written (.branch firm) text) : Written (.branches firm) text
  | choice (first : Written (.branch firm) text) (others : Written (.branches firm) more) :
    Written (.branches firm) (text ++ '|' :: more)

/-- The engine takes the patterns that are written as documented, up to a length. -/
def Engine.TakesWritten (engine : Engine) (room : Nat) : Prop :=
  ∀ (pattern : String) (shape : Shape), Written shape pattern.toList → pattern.toList.length ≤ room →
    ∃ searcher, engine.compile pattern = .ok searcher

variable {text : List Char} {shape : Shape} {c : Char}

theorem ne_backslash_of_hasMeaning (stands : hasMeaning c = false) : c ≠ '\\' := by
  rintro rfl
  exact absurd stands (by decide)

theorem ne_backslash_of_isMark (stands : isMark c = false) : c ≠ '\\' := by
  rintro rfl
  exact absurd stands (by decide)

theorem ne_backslash_of_hasClassMeaning (stands : hasClassMeaning c = false) : c ≠ '\\' := by
  rintro rfl
  exact absurd stands (by decide)

section Units

/-- Spelled characters leave no escape open. -/
theorem endsWhole_of_spelled (spelled : spelled? text = some chars) : endsWhole text = true := by
  fun_induction spelled? text generalizing chars with
  | case1 => rfl
  | case2 c rest loses ih =>
    obtain ⟨others, same, -⟩ := Option.map_eq_some_iff.mp spelled
    exact ih same
  | case3 | case4 => cases spelled
  | case5 c rest _ plain ih =>
    obtain ⟨others, same, -⟩ := Option.map_eq_some_iff.mp spelled
    rw [endsWhole_plain (ne_backslash_of_hasMeaning (Bool.eq_false_iff.mpr plain))]
    exact ih same

theorem Members.endsWhole (members : Members text) : endsWhole text = true := by
  induction members with
  | nothing => rfl
  | plain stands rest ih => rwa [endsWhole_plain (ne_backslash_of_hasClassMeaning stands)]
  | escaped loses rest ih => exact ih
  | named known rest ih => exact ih
  | range stands standsLast le rest ih =>
    rwa [endsWhole_plain (ne_backslash_of_hasClassMeaning stands), endsWhole_plain (by decide),
      endsWhole_plain (ne_backslash_of_hasClassMeaning standsLast)]

theorem Single.endsWhole (single : Single text) : endsWhole text = true := by
  cases single with
  | plain stands => exact endsWhole_plain (ne_backslash_of_isMark stands) []
  | escaped | control | any | named => rfl
  | oneOf members =>
    rw [endsWhole_plain (by decide), endsWhole_append members.endsWhole]
    rfl
  | noneOf members =>
    rw [endsWhole_plain (by decide), endsWhole_plain (by decide), endsWhole_append members.endsWhole]
    rfl

/-- What stands between two texts that end whole ends whole. -/
theorem endsWhole_enclosed {opening mark : List Char} (opens : endsWhole opening = true)
    (whole : endsWhole text = true) (marked : endsWhole mark = true) :
    endsWhole (opening ++ (text ++ ')' :: mark)) = true := by
  rw [endsWhole_append opens, endsWhole_append whole, endsWhole_plain (by decide), marked]

theorem endsWhole_of_mem {texts : List (List Char)} (all : texts.all endsWhole = true)
    (known : text ∈ texts) : endsWhole text = true :=
  List.all_eq_true.mp all text known

/-- A pattern as it is written leaves no escape open. -/
theorem Written.endsWhole (written : Written shape text) : endsWhole text = true := by
  induction written with
  | nothing | none => rfl
  | one single => exact single.endsWhole
  | repeated single known =>
    rw [endsWhole_append single.endsWhole]
    exact endsWhole_of_mem (by decide) known
  | condition known => exact endsWhole_of_mem (by decide) known
  | behind known spelled =>
    exact endsWhole_enclosed (endsWhole_of_mem (by decide) known) (endsWhole_of_spelled spelled) rfl
  | behindOne known single =>
    exact endsWhole_enclosed (endsWhole_of_mem (by decide) known) single.endsWhole rfl
  | behindCondition known stands =>
    exact endsWhole_enclosed (endsWhole_of_mem (by decide) known) (endsWhole_of_mem (by decide) stands) rfl
  | ahead known body ih | group known body ih =>
    exact endsWhole_enclosed (endsWhole_of_mem (by decide) known) ih rfl
  | repeatedGroup known body knownMark ih =>
    exact endsWhole_enclosed (endsWhole_of_mem (by decide) known) ih
      (endsWhole_of_mem (by decide) knownMark)
  | plain body ih => exact endsWhole_enclosed (by decide) ih rfl
  | repeatedPlain body known ih =>
    exact endsWhole_enclosed (by decide) ih (endsWhole_of_mem (by decide) known)
  | next first second ihFirst ihSecond => rw [endsWhole_append ihFirst, ihSecond]
  | whole only ih => exact ih
  | choice first others ihFirst ihOthers =>
    rw [endsWhole_append ihFirst, endsWhole_plain (by decide), ihOthers]

end Units

section Flavours

variable (flavour : Flavour)

theorem replaceChars_letter {letter : Char} (other : (letter = 'A' || letter = 'G') = false)
    (rest : List Char) :
    flavour.replaceChars ('\\' :: letter :: rest) = '\\' :: letter :: flavour.replaceChars rest := by
  simp [Flavour.replaceChars, other]

/-- What loses its meaning behind a backslash is no condition there. -/
theorem letter_of_losesMeaning (loses : losesMeaning c = true) : (c = 'A' || c = 'G') = false := by
  have other := isAlphanum_of_losesMeaning loses
  simp [ne_of_isAlphanum other 'A' rfl, ne_of_isAlphanum other 'G' rfl]

theorem letter_of_mem {letters : List Char}
    (all : letters.all (fun letter => !(letter = 'A' || letter = 'G')) = true) (known : c ∈ letters) :
    (c = 'A' || c = 'G') = false := by
  simpa using List.all_eq_true.mp all c known

theorem replaceChars_of_spelled (spelled : spelled? text = some chars) :
    flavour.replaceChars text = text := by
  fun_induction spelled? text generalizing chars with
  | case1 => rfl
  | case2 c rest loses ih =>
    obtain ⟨others, same, -⟩ := Option.map_eq_some_iff.mp spelled
    rw [replaceChars_letter flavour (letter_of_losesMeaning loses), ih same]
  | case3 | case4 => cases spelled
  | case5 c rest _ plain ih =>
    obtain ⟨others, same, -⟩ := Option.map_eq_some_iff.mp spelled
    rw [replaceChars_plain flavour (ne_backslash_of_hasMeaning (Bool.eq_false_iff.mpr plain)), ih same]

/-- The members of a class are the same in every flavour. -/
theorem Members.replaceChars_eq (members : Members text) : flavour.replaceChars text = text := by
  induction members with
  | nothing => rfl
  | plain stands rest ih =>
    rw [replaceChars_plain flavour (ne_backslash_of_hasClassMeaning stands), ih]
  | escaped loses rest ih => rw [replaceChars_letter flavour (letter_of_losesMeaning loses), ih]
  | named known rest ih => rw [replaceChars_letter flavour (letter_of_mem (by decide) known), ih]
  | range stands standsLast le rest ih =>
    rw [replaceChars_plain flavour (ne_backslash_of_hasClassMeaning stands),
      replaceChars_plain flavour (by decide),
      replaceChars_plain flavour (ne_backslash_of_hasClassMeaning standsLast), ih]

/-- What takes one character is the same in all flavours. -/
theorem Single.replaceChars_eq (single : Single text) : flavour.replaceChars text = text := by
  cases single with
  | plain stands => exact replaceChars_plain flavour (ne_backslash_of_isMark stands) []
  | escaped loses => exact replaceChars_letter flavour (letter_of_losesMeaning loses) []
  | control known => exact replaceChars_letter flavour (letter_of_mem (by decide) known) []
  | any => rfl
  | named known => exact replaceChars_letter flavour (letter_of_mem (by decide) known) []
  | oneOf members =>
    rw [replaceChars_plain flavour (by decide), replaceChars_append flavour members.endsWhole,
      members.replaceChars_eq]
    rfl
  | noneOf members =>
    rw [replaceChars_plain flavour (by decide), replaceChars_plain flavour (by decide),
      replaceChars_append flavour members.endsWhole, members.replaceChars_eq]
    rfl

/-- What stands between two texts without conditions is replaced alone. -/
theorem replaceChars_enclosed {opening mark : List Char} (opens : endsWhole opening = true)
    (same : flavour.replaceChars opening = opening) (whole : endsWhole text = true)
    (sameMark : flavour.replaceChars mark = mark) :
    flavour.replaceChars (opening ++ (text ++ ')' :: mark)) =
      opening ++ (flavour.replaceChars text ++ ')' :: mark) := by
  rw [replaceChars_append flavour opens, same, replaceChars_append flavour whole,
    replaceChars_plain flavour (by decide), sameMark]

/-- A text without backslashes is the same in all flavours. -/
theorem replaceChars_of_mem {texts : List (List Char)} (all : texts.all (!·.contains '\\') = true)
    (known : text ∈ texts) : flavour.replaceChars text = text := by
  have free : '\\' ∉ text := by simpa using List.all_eq_true.mp all text known
  clear known
  induction text with
  | nil => rfl
  | cons c text ih =>
    rw [List.mem_cons, not_or] at free
    rw [replaceChars_plain flavour (Ne.symm free.1), ih free.2]

/-- A condition is the same in a flavour, or the character that no text has. -/
theorem replaceChars_condition (known : text ∈ conditions) :
    flavour.replaceChars text = text ∨ flavour.replaceChars text = [Flavour.noChar] := by
  revert text
  cases flavour <;> decide

/-- The character that no text has stands for itself. -/
theorem single_noChar : Single [Flavour.noChar] := .plain (by decide)

/-- A pattern is written as documented in all flavours. -/
theorem Written.replaceChars (written : Written shape text) :
    Written shape (flavour.replaceChars text) := by
  induction written with
  | nothing => exact .nothing
  | none => exact .none
  | one single =>
    rw [single.replaceChars_eq flavour]
    exact .one single
  | repeated single known =>
    rw [replaceChars_append flavour single.endsWhole, single.replaceChars_eq flavour,
      replaceChars_of_mem flavour (by decide) known]
    exact .repeated single known
  | condition known =>
    rcases replaceChars_condition flavour known with same | gone
    · rw [same]
      exact .condition known
    · rw [gone]
      exact .one single_noChar
  | behind known spelled =>
    rw [replaceChars_enclosed flavour (endsWhole_of_mem (by decide) known)
      (replaceChars_of_mem flavour (by decide) known) (endsWhole_of_spelled spelled) rfl,
      replaceChars_of_spelled flavour spelled]
    exact .behind known spelled
  | behindOne known single =>
    rw [replaceChars_enclosed flavour (endsWhole_of_mem (by decide) known)
      (replaceChars_of_mem flavour (by decide) known) single.endsWhole rfl,
      single.replaceChars_eq flavour]
    exact .behindOne known single
  | behindCondition known stands =>
    rw [replaceChars_enclosed flavour (endsWhole_of_mem (by decide) known)
      (replaceChars_of_mem flavour (by decide) known) (endsWhole_of_mem (by decide) stands) rfl]
    rcases replaceChars_condition flavour (List.mem_cons_of_mem _ stands) with same | gone
    · rw [same]
      exact .behindCondition known stands
    · rw [gone]
      exact .behindOne known single_noChar
  | ahead known body ih =>
    rw [replaceChars_enclosed flavour (endsWhole_of_mem (by decide) known)
      (replaceChars_of_mem flavour (by decide) known) body.endsWhole rfl]
    exact .ahead known ih
  | group known body ih =>
    rw [replaceChars_enclosed flavour (endsWhole_of_mem (by decide) known)
      (replaceChars_of_mem flavour (by decide) known) body.endsWhole rfl]
    exact .group known ih
  | repeatedGroup known body knownMark ih =>
    rw [replaceChars_enclosed flavour (endsWhole_of_mem (by decide) known)
      (replaceChars_of_mem flavour (by decide) known) body.endsWhole
      (replaceChars_of_mem flavour (by decide) knownMark)]
    exact .repeatedGroup known ih knownMark
  | plain body ih =>
    rw [replaceChars_enclosed flavour (by decide) rfl body.endsWhole rfl]
    exact .plain ih
  | repeatedPlain body known ih =>
    rw [replaceChars_enclosed flavour (by decide) rfl body.endsWhole
      (replaceChars_of_mem flavour (by decide) known)]
    exact .repeatedPlain ih known
  | next first second ihFirst ihSecond =>
    rw [replaceChars_append flavour first.endsWhole]
    exact .next ihFirst ihSecond
  | whole only ih => exact .whole ih
  | choice first others ihFirst ihOthers =>
    rw [replaceChars_append flavour first.endsWhole, replaceChars_plain flavour (by decide)]
    exact .choice ihFirst ihOthers

end Flavours
end Regex
end ScopeLexer

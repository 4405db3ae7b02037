import Mathlib.Data.List.TakeWhile
import ScopeLexer.Pattern.Backreference
import ScopeLexer.Pattern.Basic

/-! The back-references of a template. In a pattern a backslash belongs to the character after it, so
the second of two backslashes refers to nothing, whatever follows; where a back-reference stands can be
told from the number of backslashes before it. The pattern is looked at in this way when it is read.
When it is resolved it is not: every backslash with digits after it is taken for a back-reference, and
digits of all scripts count. The two agree exactly if no escaped backslash has digits after it and no
digit of another script follows a backslash or its digits. -/
namespace ScopeLexer.Pattern

open Regex

/-- An even number of backslashes stands at the end of a text: none of them escapes what follows. -/
def Unescaped (before : List Char) : Prop := (before.reverse.takeWhile (· = '\\')).length % 2 = 0

instance (before : List Char) : Decidable (Unescaped before) := inferInstanceAs (Decidable (_ = _))

/-- A decimal digit is the first character. -/
def StartsWithDigit (rest : List Char) : Prop := ∃ digit ∈ rest.head?, digit.isDigit = true

instance (rest : List Char) : Decidable (StartsWithDigit rest) :=
  decidable_of_iff (rest.head?.any Char.isDigit = true) (Option.any_eq_true ..)

/-- The parts of a template behind some text. A backslash that is not escaped and all decimal digits
after it are a back-reference, and every other character is a part of its own. -/
inductive Divides : List Char → List TemplatePart → List Char → Prop where
  | nil (before : List Char) : Divides before [] []
  | char (alone : ¬ (c = '\\' ∧ Unescaped before ∧ StartsWithDigit rest))
      (after : Divides (before ++ [c]) parts rest) : Divides before (.char c :: parts) (c :: rest)
  | reference (unescaped : Unescaped before) (some : digits ≠ [])
      (decimal : ∀ digit ∈ digits, digit.isDigit = true) (maximal : ¬ StartsWithDigit rest)
      (after : Divides (before ++ '\\' :: digits) parts rest) :
      Divides before (.reference digits :: parts) ('\\' :: (digits ++ rest))

/-- Wherever a digit of any script follows a backslash, the backslash is not escaped and all digits
that follow are decimal. -/
def Clear : List Char → List Char → Prop
  | _, [] => True
  | before, c :: rest =>
    (c = '\\' → rest.takeWhile isDigitChar ≠ [] →
      Unescaped before ∧ ∀ digit ∈ rest.takeWhile isDigitChar, digit.isDigit = true) ∧
    Clear (before ++ [c]) rest

instance decidableClear : (before chars : List Char) → Decidable (Clear before chars)
  | _, [] => inferInstanceAs (Decidable True)
  | before, c :: rest =>
    have := decidableClear (before ++ [c]) rest
    have : Decidable (∀ digit ∈ rest.takeWhile isDigitChar, digit.isDigit = true) :=
      List.decidableBAll ..
    inferInstanceAs (Decidable (_ ∧ _))

section Characters

theorem isDigit_cases {digit : Char} (decimal : digit.isDigit = true) :
    isDigitChar digit = true ∧ digit ≠ '\\' := by
  have all : ∀ code : Fin 128, (Char.ofNat code).isDigit = true →
      isDigitChar (Char.ofNat code) = true ∧ Char.ofNat code ≠ '\\' := by
    decide +kernel
  have small : digit.toNat < 128 := by
    simp only [Char.isDigit, Bool.and_eq_true, decide_eq_true_eq, UInt32.le_iff_toNat_le] at decimal
    exact Nat.lt_of_le_of_lt decimal.2 (by decide)
  have here := all ⟨digit.toNat, small⟩
  rw [Char.ofNat_toNat] at here
  exact here decimal

/-- The digits that a number of a group may start with when a pattern is read. -/
theorem counted_iff (c : Char) : ('1' ≤ c ∧ c ≤ '9') ↔ c.isDigit = true ∧ c ≠ '0' := by
  have zero : c = '0' ↔ c.val.toNat = 48 := by
    rw [← Char.val_inj, ← UInt32.toNat_inj]
    rfl
  simp only [Char.le_def, Char.isDigit, Bool.and_eq_true, decide_eq_true_eq, UInt32.le_iff_toNat_le,
    ge_iff_le, ne_eq, zero]
  change 49 ≤ c.val.toNat ∧ c.val.toNat ≤ 57 ↔ (48 ≤ c.val.toNat ∧ c.val.toNat ≤ 57) ∧ _
  omega

theorem backslash_not_digit : isDigitChar '\\' = false := by decide +kernel

end Characters

section Escapes

variable {before : List Char} {c : Char}

theorem unescaped_nil : Unescaped [] := rfl

/-- Behind another character nothing is escaped. -/
theorem unescaped_concat (other : c ≠ '\\') : Unescaped (before ++ [c]) := by
  simp [Unescaped, other]

/-- A backslash escapes what follows exactly if it is not escaped itself. -/
theorem unescaped_backslash : Unescaped (before ++ ['\\']) ↔ ¬ Unescaped before := by
  simp only [Unescaped, List.reverse_append, List.reverse_singleton, List.singleton_append,
    List.takeWhile_cons, decide_true, if_true, List.length_cons]
  omega

end Escapes

section Divisions

variable {before chars rest : List Char} {parts others : List TemplatePart}

theorem startsWithDigit_iff : StartsWithDigit rest ↔ rest.takeWhile Char.isDigit ≠ [] := by
  cases rest with
  | nil => simp [StartsWithDigit]
  | cons c rest => by_cases digit : c.isDigit = true <;> simp [StartsWithDigit, digit]

theorem not_startsWithDigit_dropWhile (rest : List Char) :
    ¬ StartsWithDigit (rest.dropWhile Char.isDigit) := by
  rintro ⟨digit, first, decimal⟩
  have := List.head?_dropWhile_not Char.isDigit rest
  rw [Option.mem_def.mp first] at this
  simp [decimal] at this

/-- A back-reference takes all digits that there are. -/
theorem takeWhile_digits {digits : List Char} (decimal : ∀ digit ∈ digits, digit.isDigit = true)
    (maximal : ¬ StartsWithDigit rest) : (digits ++ rest).takeWhile Char.isDigit = digits := by
  rw [List.takeWhile_append_of_pos decimal]
  rw [startsWithDigit_iff, Classical.not_not] at maximal
  rw [maximal, List.append_nil]

/-- Every template has parts. -/
theorem exists_divides (before chars : List Char) : ∃ parts, Divides before parts chars := by
  induction length : chars.length using Nat.strongRecOn generalizing before chars with
  | ind length ih =>
    cases chars with
    | nil => exact ⟨[], .nil before⟩
    | cons c rest =>
      subst length
      by_cases refers : c = '\\' ∧ Unescaped before ∧ StartsWithDigit rest
      · obtain ⟨rfl, unescaped, starts⟩ := refers
        have whole := List.takeWhile_append_dropWhile (p := Char.isDigit) (l := rest)
        have shorter := (List.dropWhile_sublist (l := rest) Char.isDigit).length_le
        obtain ⟨parts, after⟩ := ih _ (Nat.lt_succ_of_le shorter)
          (before ++ '\\' :: rest.takeWhile Char.isDigit) _ rfl
        have divides := Divides.reference unescaped (startsWithDigit_iff.mp starts)
          (fun digit member => List.mem_takeWhile_imp member) (not_startsWithDigit_dropWhile rest) after
        rw [whole] at divides
        exact ⟨_, divides⟩
      · obtain ⟨parts, after⟩ := ih rest.length (Nat.lt_succ_self _) (before ++ [c]) rest rfl
        exact ⟨_, .char refers after⟩

/-- What is no back-reference stands for itself. -/
theorem Divides.char_cases (divides : Divides before parts (c :: rest))
    (alone : ¬ (c = '\\' ∧ Unescaped before ∧ StartsWithDigit rest)) :
    ∃ others, parts = .char c :: others ∧ Divides (before ++ [c]) others rest := by
  cases divides with
  | char _ after => exact ⟨_, rfl, after⟩
  | reference unescaped some decimal maximal =>
    refine absurd ⟨rfl, unescaped, ?_⟩ alone
    rw [startsWithDigit_iff, takeWhile_digits decimal maximal]
    exact some

/-- A back-reference is a part with all its digits. -/
theorem Divides.reference_cases (divides : Divides before parts ('\\' :: (digits ++ rest)))
    (unescaped : Unescaped before) (some : digits ≠ [])
    (decimal : ∀ digit ∈ digits, digit.isDigit = true) (maximal : ¬ StartsWithDigit rest) :
    ∃ others, parts = .reference digits :: others ∧ Divides (before ++ '\\' :: digits) others rest := by
  have taken := takeWhile_digits decimal maximal
  generalize same : digits ++ rest = text at divides taken
  cases divides with
  | char alone =>
    refine absurd ⟨rfl, unescaped, ?_⟩ alone
    rw [startsWithDigit_iff, taken]
    exact some
  | reference _ _ also further after =>
    rw [takeWhile_digits also further] at taken
    subst taken
    obtain rfl := List.append_cancel_left same
    exact ⟨_, rfl, after⟩

/-- What a division that starts with a back-reference says. -/
theorem Divides.reference_inv (divides : Divides before (.reference digits :: parts) ('\\' :: chars)) :
    ∃ rest, chars = digits ++ rest ∧ Unescaped before ∧
      (∀ digit ∈ digits, digit.isDigit = true) ∧ ¬ StartsWithDigit rest ∧
      Divides (before ++ '\\' :: digits) parts rest := by
  cases divides with
  | reference unescaped some decimal maximal after =>
    exact ⟨_, rfl, unescaped, decimal, maximal, after⟩

/-- A template has only one division. -/
theorem Divides.unique (divides : Divides before parts chars)
    (also : Divides before others chars) : parts = others := by
  induction divides generalizing others with
  | nil before =>
    cases also
    rfl
  | char alone after ih =>
    obtain ⟨others, rfl, same⟩ := also.char_cases alone
    rw [ih same]
  | reference unescaped some decimal maximal after ih =>
    obtain ⟨others, rfl, same⟩ := also.reference_cases unescaped some decimal maximal
    rw [ih same]

end Divisions

section Resolution

variable {before chars word rest : List Char} {parts : List TemplatePart}

/-- Where no backslash stands all is clear. -/
theorem clear_append (others : ∀ c ∈ word, c ≠ '\\') :
    Clear before (word ++ rest) ↔ Clear (before ++ word) rest := by
  induction word generalizing before with
  | nil => rw [List.nil_append, List.append_nil]
  | cons c word ih =>
    obtain ⟨other, others⟩ := List.forall_mem_cons.mp others
    rw [List.cons_append, Clear, ih others, List.append_assoc, List.singleton_append]
    exact and_iff_right fun same => absurd same other

/-- The digits of all scripts after a backslash, if they are decimal, are all the decimal digits. -/
theorem takeWhile_decimal (decimal : ∀ digit ∈ rest.takeWhile isDigitChar, digit.isDigit = true) :
    rest.takeWhile isDigitChar = rest.takeWhile Char.isDigit := by
  induction rest with
  | nil => rfl
  | cons c rest ih =>
    by_cases any : isDigitChar c = true
    · rw [List.takeWhile_cons_of_pos any] at decimal ⊢
      obtain ⟨first, others⟩ := List.forall_mem_cons.mp decimal
      rw [List.takeWhile_cons_of_pos first, ih others]
    · have none : ¬ c.isDigit = true := fun digit => any (isDigit_cases digit).1
      rw [List.takeWhile_cons_of_neg any, List.takeWhile_cons_of_neg none]

theorem takeWhile_of_starts (starts : StartsWithDigit rest) : rest.takeWhile isDigitChar ≠ [] := by
  obtain ⟨digit, first, decimal⟩ := starts
  obtain ⟨more, rfl⟩ := List.head?_eq_some_iff.mp first
  rw [List.takeWhile_cons_of_pos (isDigit_cases decimal).1]
  exact List.cons_ne_nil _ _

/-- The parts that are resolved are those of the template exactly if it is clear. -/
theorem divides_templateParts_iff (before chars : List Char) :
    Divides before (templateParts chars) chars ↔ Clear before chars := by
  -- By induction on what is left: both sides take one character, or a backslash with its digits.
  fun_induction templateParts chars generalizing before with
  | case1 => exact iff_of_true (.nil before) trivial
  | case2 c rest digits refers ih =>
    simp only [Bool.and_eq_true, decide_eq_true_eq, Bool.not_eq_true', List.isEmpty_eq_false_iff]
      at refers
    obtain ⟨rfl, some⟩ := refers
    have whole : digits ++ rest.drop digits.length = rest :=
      List.prefix_iff_eq_append.mp (List.takeWhile_prefix _)
    have others : ∀ c ∈ digits, c ≠ '\\' := by
      rintro c member rfl
      cases backslash_not_digit.symm.trans (List.mem_takeWhile_imp member)
    have left : Clear (before ++ ['\\']) (digits ++ rest.drop digits.length) ↔
        Clear (before ++ '\\' :: digits) (rest.drop digits.length) := by
      rw [clear_append others, List.append_assoc, List.singleton_append]
    rw [whole, ← ih] at left
    rw [Clear, left]
    constructor
    · intro divides
      obtain ⟨after, same, unescaped, decimal, maximal, divides⟩ := divides.reference_inv
      obtain rfl := List.append_cancel_left (whole.trans same)
      exact ⟨fun _ _ => ⟨unescaped, decimal⟩, divides⟩
    · rintro ⟨clear, divides⟩
      obtain ⟨unescaped, decimal⟩ := clear rfl some
      have all : digits = rest.takeWhile Char.isDigit := takeWhile_decimal decimal
      have after : rest.drop digits.length = rest.dropWhile Char.isDigit := by
        refine List.append_cancel_left (whole.trans ?_)
        rw [all, List.takeWhile_append_dropWhile]
      have refers := Divides.reference unescaped some decimal
        (after ▸ not_startsWithDigit_dropWhile rest) divides
      rwa [whole] at refers
  | case3 c rest digits alone ih =>
    simp only [Bool.and_eq_true, decide_eq_true_eq, Bool.not_eq_true', List.isEmpty_eq_false_iff,
      not_and] at alone
    rw [Clear, ← ih]
    constructor
    · rintro (_ | ⟨_, after⟩)
      exact ⟨fun same some => absurd some (alone same), after⟩
    · rintro ⟨-, after⟩
      refine .char ?_ after
      rintro ⟨same, -, starts⟩
      exact alone same (takeWhile_of_starts starts)

/-- A division of a clear template is what is resolved. -/
theorem resolve_of_divides {template : String} (divides : Divides [] parts template.toList)
    (clear : Clear [] template.toList) (line : SourceLine) (spans : Spans)
    (inRange : ∀ digits, .reference digits ∈ parts →
      ∃ group, groupNumber? digits = some group ∧ group < spans.size) :
    resolve template line spans = (String.join (parts.map (·.resolve line spans)), []) := by
  have same := ((divides_templateParts_iff [] template.toList).mpr clear).unique divides
  have inside : parts.any (·.outOfRange spans) = false := by
    rw [List.any_eq_false]
    intro part member
    cases part with
    | char c => exact Bool.false_ne_true
    | reference digits =>
      obtain ⟨group, number, bound⟩ := inRange digits member
      simpa [TemplatePart.outOfRange, number] using bound
  simp only [resolve, same, inside, Bool.false_eq_true, if_false]

end Resolution

section Detection

variable {before word rest : List Char} {letter : Char} {parts : List TemplatePart}

/-- A backslash and a character that is no digit are two parts, and escape nothing further. -/
theorem Divides.pair_cases (divides : Divides before parts ('\\' :: letter :: rest))
    (unescaped : Unescaped before) (other : ¬ letter.isDigit = true) :
    Unescaped (before ++ ['\\'] ++ [letter]) ∧ ∃ others,
      parts = .char '\\' :: .char letter :: others ∧
      Divides (before ++ ['\\'] ++ [letter]) others rest := by
  have escaped : ¬ Unescaped (before ++ ['\\']) := fun also => unescaped_backslash.mp also unescaped
  obtain ⟨_, rfl, second⟩ := divides.char_cases (by simp [StartsWithDigit, other])
  obtain ⟨others, rfl, after⟩ := second.char_cases fun refers => escaped refers.2.1
  refine ⟨?_, others, rfl, after⟩
  by_cases backslash : letter = '\\'
  · rw [backslash, unescaped_backslash]
    exact escaped
  · exact unescaped_concat backslash

/-- Characters that are no backslashes are parts of their own. -/
theorem Divides.plain (others : ∀ c ∈ word, c ≠ '\\') (divides : Divides (before ++ word) parts rest) :
    Divides before (word.map .char ++ parts) (word ++ rest) := by
  induction word generalizing before with
  | nil => rwa [List.append_nil] at divides
  | cons c word ih =>
    obtain ⟨other, others⟩ := List.forall_mem_cons.mp others
    refine .char (fun refers => other refers.1) (ih others ?_)
    rwa [List.append_assoc, List.singleton_append]

/-- A backslash that is not escaped and a digit start a back-reference. What comes after the digit can
be divided as well, and is without the back-reference. -/
theorem Divides.digit_cases (divides : Divides before parts ('\\' :: letter :: rest))
    (unescaped : Unescaped before) (digit : letter.isDigit = true) :
    ∃ more others, parts = .reference (letter :: more) :: others ∧
      Divides (before ++ ['\\'] ++ [letter]) (more.map .char ++ others) rest := by
  generalize same : letter :: rest = text at divides
  cases divides with
  | char alone => exact absurd ⟨rfl, unescaped, same ▸ ⟨letter, rfl, digit⟩⟩ alone
  | reference _ some decimal maximal after =>
    obtain ⟨first, more, rfl⟩ := List.exists_cons_of_ne_nil some
    obtain ⟨rfl, rfl⟩ := List.cons.inj same
    have others : ∀ c ∈ more, c ≠ '\\' := fun c member =>
      (isDigit_cases (decimal c (List.mem_cons_of_mem _ member))).2
    refine ⟨more, _, rfl, .plain others ?_⟩
    simpa using after

/-- A pattern is read with its back-references: it has some exactly if there is a part that is a
back-reference whose number does not start with zero. -/
theorem hasReferences_normalise (chars : List Char) : ∀ before parts, Divides before parts chars →
    Unescaped before → ((normalise chars).hasReferences = true ↔
      ∃ digits, .reference digits ∈ parts ∧ digits.head? ≠ some '0') := by
  -- The induction takes a backslash together with the character after it, so none is ever escaped.
  fun_induction normalise chars with
  | case1 =>
    intro before parts divides unescaped
    cases divides
    simp
  | case2 =>
    intro before parts divides unescaped
    obtain ⟨_, rfl, after⟩ := divides.char_cases (by simp [StartsWithDigit])
    cases after
    simp
  | case3 rest draft ih =>
    intro before parts divides unescaped
    obtain ⟨also, others, rfl, after⟩ := divides.pair_cases unescaped (by decide)
    simpa using ih _ _ after also
  | case4 letter rest draft other ih =>
    intro before parts divides unescaped
    by_cases digit : letter.isDigit = true
    · obtain ⟨more, others, rfl, after⟩ := divides.digit_cases unescaped digit
      have later := ih _ _ after (unescaped_concat (isDigit_cases digit).2)
      have counted := counted_iff letter
      simp only [List.mem_append, List.mem_map, reduceCtorEq, and_false, exists_false, false_or]
        at later
      simp [counted, digit, draft, later, or_and_right, exists_or]
    · obtain ⟨also, others, rfl, after⟩ := divides.pair_cases unescaped digit
      have counted := counted_iff letter
      simpa [counted, digit] using ih _ _ after also
  | case5 c rest alone other draft ih =>
    intro before parts divides unescaped
    have plain : c ≠ '\\' := by
      rintro rfl
      cases rest with
      | nil => exact alone rfl rfl
      | cons letter rest => exact other letter rest rfl rfl
    obtain ⟨others, rfl, after⟩ := divides.char_cases fun refers => plain refers.1
    simpa using ih _ _ after (unescaped_concat plain)

end Detection

/-- How the back-references of a template are resolved. The template has parts, of which a back-reference
is a backslash that is not escaped with all decimal digits after it; and when the template is read as a
pattern, the same back-references are seen, but for those whose number starts with zero. The parts that
are resolved are these exactly if the template is clear. Then, if the match has all groups that the
template refers to, each back-reference is replaced by the escaped text of its group, or by nothing if
the group took no part, and all else is kept. -/
theorem references_resolve_exactly (template : String) :
    ∃ parts, Divides [] parts template.toList ∧
      ((Pattern.ofText template).hasReferences = true ↔
        ∃ digits, .reference digits ∈ parts ∧ digits.head? ≠ some '0') ∧
      (templateParts template.toList = parts ↔ Clear [] template.toList) ∧
      (Clear [] template.toList → ∀ line spans,
        (∀ digits, .reference digits ∈ parts →
          ∃ group, groupNumber? digits = some group ∧ group < spans.size) →
        resolve template line spans = (String.join (parts.map (·.resolve line spans)), [])) := by
  obtain ⟨parts, divides⟩ := exists_divides [] template.toList
  refine ⟨parts, divides, hasReferences_normalise _ _ _ divides unescaped_nil, ?_,
    resolve_of_divides divides⟩
  rw [← divides_templateParts_iff]
  exact ⟨fun same => same ▸ divides, fun also => also.unique divides⟩

/-- A backslash with a digit after it may be escaped, and a digit may be of another script. -/
example : Clear [] "^\\\\[1]\\1\\d".toList ∧ ¬ Clear [] "\\\\1".toList ∧ ¬ Clear [] "\\1٣".toList := by
  decide +kernel

/-- An escaped backslash with a digit after it is resolved all the same, and so is a backslash with a
digit of another script, which then stands for the whole match. -/
theorem escaped_backslash_resolved :
    let line := SourceLine.ofText 0 "ab"
    let spans : Spans := #[some ⟨0, 2⟩, some ⟨0, 1⟩]
    (∃ parts, Divides [] parts "\\\\1\\1".toList ∧
      (∀ digits, .reference digits ∈ parts → digits = ['1']) ∧
      String.join (parts.map (·.resolve line spans)) = "\\\\1a" ∧
      resolve "\\\\1\\1" line spans = ("\\aa", [])) ∧
    ∃ parts, Divides [] parts "\\1\\٣".toList ∧
      (∀ digits, .reference digits ∈ parts → digits = ['1']) ∧
      String.join (parts.map (·.resolve line spans)) = "a\\٣" ∧
      resolve "\\1\\٣" line spans = ("aab", []) := by
  intro line spans
  refine ⟨⟨[.char '\\', .char '\\', .char '1', .reference ['1']], ?_, by simp, by decide +kernel,
    by decide +kernel⟩, [.reference ['1'], .char '\\', .char '٣'], ?_, by simp, by decide +kernel,
    by decide +kernel⟩
  · exact .char (by decide) (.char (by decide) (.char (by decide)
      (.reference (by decide) (by simp) (by simp) (by decide) (.nil _))))
  · exact .reference (by decide) (by simp) (by simp) (by decide) (.char (by decide)
      (.char (by decide) (.nil _)))

end ScopeLexer.Pattern

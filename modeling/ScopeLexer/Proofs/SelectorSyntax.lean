import Mathlib.Data.List.TakeWhile
import ScopeLexer.Selector.Parser

/-! Selectors as they are written. A condition is built from paths of names, negation, conjunctions
and alternatives, and has parentheses around every part. Its tokens are those of its parts, one after
the other, since what follows a name never goes on with it. -/
namespace ScopeLexer.Selector

/-- Whether a character can start a name: an ASCII letter or digit, an underscore or a dot. -/
def isPlain (c : Char) : Bool := c.isAlphanum || c = '_' || c = '.'

/-- A name in a path. Minus signs may follow its first character. -/
structure PathName where
  first : Char
  more : List Char
  starts : isPlain first = true
  goesOn : ∀ c ∈ more, isPlain c = true ∨ c = '-'

namespace PathName

def chars (name : PathName) : List Char := name.first :: name.more

def text (name : PathName) : String := String.ofList name.chars

end PathName

/-- The sign between two alternatives. -/
inductive Divider where
  | bar
  | comma

def Divider.char : Divider → Char
  | .bar => '|'
  | .comma => ','

/-- A condition on scope paths, as it is written. -/
inductive Expression where
  /-- A path of names. -/
  | path (first : PathName) (others : List PathName)
  | not (operand : Expression)
  | all (first : Expression) (others : List Expression)
  /-- Alternatives, each but the first with the sign before it. -/
  | some (first : Expression) (others : List (Divider × Expression))

/-- How many spaces are written. -/
structure Layout where
  /-- Between neighbours, besides the one that divides them. -/
  gap : Nat := 0
  /-- On either side of a sign that divides. -/
  margin : Nat := 0

namespace Layout

/-- What stands between two names or two operands. -/
def space (layout : Layout) : List Char := List.replicate (layout.gap + 1) ' '

/-- A sign that divides, with the spaces around it. -/
def around (layout : Layout) (sign : Char) : List Char :=
  List.replicate layout.margin ' ' ++ sign :: List.replicate layout.margin ' '

end Layout

def enclosed (chars : List Char) : List Char := '(' :: (chars ++ [')'])

namespace Expression

theorem sizeOf_alternative {others : List (Divider × Expression)} (member : other ∈ others) :
    sizeOf other.2 < sizeOf (Expression.some first others) := by
  have whole := List.sizeOf_lt_of_mem member
  obtain ⟨divider, expression⟩ := other
  simp only [Prod.mk.sizeOf_spec, Expression.some.sizeOf_spec] at whole ⊢
  omega

/-- A condition as it is written inside parentheses. Each of its parts has parentheses of its own. -/
def chars (layout : Layout) : Expression → List Char
  | .path first others => first.chars ++ others.flatMap fun name => layout.space ++ name.chars
  | .not operand => '-' :: enclosed (operand.chars layout)
  | .all first others =>
    enclosed (first.chars layout) ++
      others.flatMap fun other => layout.space ++ enclosed (other.chars layout)
  | .some first others =>
    enclosed (first.chars layout) ++ others.flatMap fun other =>
      layout.around other.1.char ++ enclosed (other.2.chars layout)
termination_by expression => sizeOf expression
decreasing_by
  any_goals decreasing_tactic
  exact sizeOf_alternative ‹_›

/-- A condition as it is written by itself: alternatives are in parentheses. -/
def written (layout : Layout) (expression : Expression) : List Char :=
  match expression with
  | .path .. | .not _ | .all .. => expression.chars layout
  | .some .. => enclosed (expression.chars layout)

/-- What holds of a condition whenever it holds of its parts holds of all. -/
theorem induction {motive : Expression → Prop} (path : ∀ first others, motive (.path first others))
    (not : ∀ operand, motive operand → motive (.not operand))
    (all : ∀ first others, motive first → (∀ other ∈ others, motive other) →
      motive (.all first others))
    (some : ∀ first others, motive first → (∀ other ∈ others, motive other.2) →
      motive (.some first others)) : ∀ expression, motive expression
  | .path first others => path first others
  | .not operand => not operand (induction path not all some operand)
  | .all first others => all first others (induction path not all some first)
    fun other _ => induction path not all some other
  | .some first others => some first others (induction path not all some first)
    fun other _ => induction path not all some other.2
termination_by expression => sizeOf expression
decreasing_by
  any_goals decreasing_tactic
  exact sizeOf_alternative ‹_›

end Expression

section Lexing

/-- What follows a name does not go on with it. -/
def Stops (rest : List Char) : Prop := ∀ c ∈ rest.head?, continuesName c = false

theorem takeWhile_stops {chars rest : List Char} (stops : Stops rest) :
    (chars ++ rest).takeWhile continuesName = chars.takeWhile continuesName := by
  have none : rest.takeWhile continuesName = [] := by
    cases rest with
    | nil => rfl
    | cons c rest => simp [stops c rfl]
  rw [List.takeWhile_append, none]
  split
  next all => rw [List.append_nil, (List.takeWhile_sublist _).eq_of_length all]
  next => rfl

/-- Only a mark of priority is read together with the colon after it. -/
theorem tokens_cons {c : Char} {rest : List Char}
    (noMark : ∀ tail, rest = ':' :: tail → c ≠ 'L' ∧ c ≠ 'R') :
    tokens (c :: rest) =
      if startsName c then
        .name (String.ofList (c :: rest.takeWhile continuesName)) ::
          tokens (rest.drop (rest.takeWhile continuesName).length)
      else (signToken? c).toList ++ tokens rest := by
  rw [tokens]
  · split
    · rfl
    · split <;> simp [*]
  · exact fun tail mark colon => (noMark tail colon).1 mark
  · exact fun tail mark colon => (noMark tail colon).2 mark

/-- The tokens of a text are those of its parts, wherever no name is divided. -/
theorem tokens_append {rest : List Char} (stops : Stops rest) (chars : List Char) :
    tokens (chars ++ rest) = tokens chars ++ tokens rest := by
  have noMark {c : Char} {chars : List Char} (left : ∀ tail, c = 'L' → chars = ':' :: tail → False)
      (right : ∀ tail, c = 'R' → chars = ':' :: tail → False) (tail : List Char)
      (joined : chars ++ rest = ':' :: tail) : c ≠ 'L' ∧ c ≠ 'R' := by
    cases chars with
    | nil =>
      have never := stops ':' (by rw [← List.nil_append rest, joined]; rfl)
      exact absurd never (by decide)
    | cons d chars =>
      obtain ⟨rfl, _⟩ := List.cons.inj joined
      exact ⟨fun same => left chars same rfl, fun same => right chars same rfl⟩
  fun_induction tokens chars with
  | case1 => rfl
  | case2 chars ih => rw [List.cons_append, List.cons_append, tokens, ih, List.cons_append]
  | case3 chars ih => rw [List.cons_append, List.cons_append, tokens, ih, List.cons_append]
  | case4 c chars left right starts more ih =>
    rw [List.cons_append, tokens_cons (noMark left right), if_pos starts, takeWhile_stops stops,
      List.drop_append_of_le_length (List.takeWhile_sublist _).length_le, ih]
    rfl
  | case5 c chars left right starts token sign ih =>
    rw [List.cons_append, tokens_cons (noMark left right), if_neg starts, sign, ih]
    rfl
  | case6 c chars left right starts sign ih =>
    rw [List.cons_append, tokens_cons (noMark left right), if_neg starts, sign, ih]
    rfl

theorem tokens_sign {c : Char} (none : startsName c = false) (sign : signToken? c = some token)
    (rest : List Char) : tokens (c :: rest) = token :: tokens rest := by
  rw [tokens_cons, none, sign]
  · rfl
  · rintro tail _
    constructor <;> rintro rfl <;> cases sign

theorem tokens_spaces (count : Nat) (rest : List Char) :
    tokens (List.replicate count ' ' ++ rest) = tokens rest := by
  induction count with
  | zero => rfl
  | succ count ih =>
    rw [List.replicate_succ, List.cons_append, tokens_cons, if_neg (by decide), ih]
    · rfl
    · rintro tail _
      decide

theorem tokens_space (layout : Layout) (rest : List Char) :
    tokens (layout.space ++ rest) = tokens rest :=
  tokens_spaces (layout.gap + 1) rest

theorem stops_spaces {rest : List Char} (stops : Stops rest) (count : Nat) :
    Stops (List.replicate count ' ' ++ rest) := by
  cases count with
  | zero => exact stops
  | succ count =>
    rintro c ⟨⟩
    decide

theorem stops_nil : Stops [] := by
  rintro c ⟨⟩

/-- A divider stands for its token, whatever spaces are around it. -/
theorem tokens_around (layout : Layout) {c : Char} (none : startsName c = false)
    (sign : signToken? c = some token) (rest : List Char) :
    tokens (layout.around c ++ rest) = token :: tokens rest := by
  rw [Layout.around, List.append_assoc, List.cons_append, tokens_spaces, tokens_sign none sign,
    tokens_spaces]

theorem stops_around (layout : Layout) {c : Char} (none : continuesName c = false)
    (rest : List Char) : Stops (layout.around c ++ rest) := by
  rw [Layout.around, List.append_assoc]
  apply stops_spaces
  rintro c ⟨⟩
  exact none

/-- The tokens of what is in parentheses are taken by themselves, whatever follows. -/
theorem tokens_enclosed (chars rest : List Char) :
    tokens (enclosed chars ++ rest) =
      .openParen :: (tokens chars ++ .closeParen :: tokens rest) := by
  have stops : Stops (')' :: rest) := by
    rintro c ⟨⟩
    decide
  rw [enclosed, List.cons_append, List.append_assoc, List.singleton_append,
    tokens_sign (by decide) rfl, tokens_append stops, tokens_sign (by decide) rfl]

namespace PathName

/-- The characters of plain names are ASCII. -/
theorem lt_of_isPlain {c : Char} (plain : isPlain c = true) : c.toNat < 128 := by
  have below {high : UInt32} (small : high.toNat < 128) (le : c.val ≤ high) : c.toNat < 128 :=
    Nat.lt_of_le_of_lt (UInt32.le_iff_toNat_le.mp le) small
  simp only [isPlain, Char.isAlphanum, Bool.or_eq_true, decide_eq_true_eq] at plain
  rcases plain with ((letter | digit) | rfl) | rfl
  · rcases Bool.or_eq_true_iff.mp letter with upper | lower
    · exact below (by decide) (of_decide_eq_true upper).2
    · exact below (by decide) (of_decide_eq_true (Bool.and_eq_true_iff.mp lower).2)
  · exact below (by decide) (of_decide_eq_true (Bool.and_eq_true_iff.mp digit).2)
  · decide
  · decide

/-- What the tables say of the characters of names. -/
theorem isPlain_cases {c : Char} (plain : isPlain c = true) :
    startsName c = true ∧ Text.isBlank c = false ∧ c ≠ '*' ∧
      (Text.isLetter c || Text.isNumber c || c = '_' || c = '.' || c = ':') = true := by
  have all : ∀ code : Fin 128, isPlain (Char.ofNat code) = true →
      startsName (Char.ofNat code) = true ∧ Text.isBlank (Char.ofNat code) = false ∧
        Char.ofNat code ≠ '*' ∧ (Text.isLetter (Char.ofNat code) ||
          Text.isNumber (Char.ofNat code) || Char.ofNat code = '_' || Char.ofNat code = '.' ||
          Char.ofNat code = ':') = true := by
    decide +kernel
  have here := all ⟨c.toNat, lt_of_isPlain plain⟩
  rw [Char.ofNat_toNat] at here
  exact here plain

variable (name : PathName)

theorem isBlank_of_mem (member : c ∈ name.chars) : Text.isBlank c = false ∧ c ≠ '*' := by
  rcases List.mem_cons.mp member with rfl | later
  · exact ⟨(isPlain_cases name.starts).2.1, (isPlain_cases name.starts).2.2.1⟩
  · rcases name.goesOn c later with plain | rfl
    · exact ⟨(isPlain_cases plain).2.1, (isPlain_cases plain).2.2.1⟩
    · decide

/-- A name that can stand in a path is one token. -/
theorem tokens_chars : tokens name.chars = [.name name.text] := by
  have whole : name.more.takeWhile continuesName = name.more := by
    rw [List.takeWhile_eq_self_iff]
    intro c member
    rcases name.goesOn c member with plain | rfl
    · simp [continuesName, (isPlain_cases plain).1]
    · decide
  have noMark (tail : List Char) (colon : name.more = ':' :: tail) :
      name.first ≠ 'L' ∧ name.first ≠ 'R' := by
    have never := name.goesOn ':' (by rw [colon]; exact List.mem_cons_self)
    exact absurd never (by decide)
  rw [chars, tokens_cons noMark, if_pos (isPlain_cases name.starts).1, whole, List.drop_length,
    tokens]
  rfl

theorem text_ne_empty : name.text ≠ "" := by
  intro empty
  have none := congrArg String.toList empty
  rw [text, String.toList_ofList] at none
  cases none

theorem isIdentifier_text : isIdentifier name.text = true := by
  rw [isIdentifier, text, String.toList_ofList, List.any_eq_true]
  exact ⟨name.first, List.mem_cons_self, (isPlain_cases name.starts).2.2.2⟩

theorem trimChars_chars : Text.trimChars name.chars = name.chars := by
  have keeps (chars : List Char) (among : ∀ c ∈ chars, c ∈ name.chars) :
      chars.dropWhile Text.isBlank = chars := by
    cases chars with
    | nil => rfl
    | cons c chars => simp [(name.isBlank_of_mem (among c List.mem_cons_self)).1]
  rw [Text.trimChars, keeps _ fun _ member => member, Text.dropEndWhile,
    keeps _ fun _ member => List.mem_reverse.mp member, List.reverse_reverse]

theorem scopeOfName_text : scopeOfName name.text = ⟨name.text⟩ := by
  have none (chars : List Char) (plain : ∀ c ∈ chars, c ≠ '*') : beforeWildcard? chars = none := by
    fun_induction beforeWildcard? chars with
    | case1 => rfl
    | case2 => simp at plain
    | case3 c rest _ ih => simp [ih fun c member => plain c (List.mem_cons_of_mem _ member)]
  rw [scopeOfName, text, String.toList_ofList, none _ fun c member => (name.isBlank_of_mem member).2]
  rw [Scope.ofText, Text.trim, String.toList_ofList, trimChars_chars]

end PathName

end Lexing

section Written

variable (layout : Layout)

/-- The tokens of a condition in parentheses. -/
def enclosedTokens (expression : Expression) : List Token :=
  .openParen :: (tokens (expression.chars layout) ++ [.closeParen])

/-- A path is one token for each of its names, however many spaces are between. -/
theorem tokens_path (first : PathName) (others : List PathName) :
    tokens (Expression.chars layout (.path first others)) =
      (first :: others).map fun name => .name name.text := by
  have rest (names : List PathName) :
      Stops (names.flatMap fun name => layout.space ++ name.chars) ∧
        tokens (names.flatMap fun name => layout.space ++ name.chars) =
          names.map fun name => .name name.text := by
    induction names with
    | nil => exact ⟨stops_nil, by simp [tokens]⟩
    | cons name names ih =>
      rw [List.flatMap_cons, List.append_assoc]
      constructor
      · rintro c ⟨⟩
        decide
      · rw [tokens_space, tokens_append ih.1, name.tokens_chars, ih.2]
        rfl
  rw [Expression.chars, tokens_append (rest others).1, first.tokens_chars, (rest others).2]
  rfl

theorem tokens_not (operand : Expression) :
    tokens (Expression.chars layout (.not operand)) = .minus :: enclosedTokens layout operand := by
  rw [Expression.chars, tokens_sign (by decide) rfl, ← List.append_nil (enclosed _),
    tokens_enclosed, tokens]
  rfl

/-- The tokens of a conjunction are those of its operands, each in parentheses where it needs
them. -/
theorem tokens_all (first : Expression) (others : List Expression) :
    tokens (Expression.chars layout (.all first others)) =
      (first :: others).flatMap (enclosedTokens layout) := by
  have rest (operands : List Expression) :
      tokens (operands.flatMap fun other => layout.space ++ enclosed (other.chars layout)) =
        operands.flatMap (enclosedTokens layout) := by
    induction operands with
    | nil => simp [tokens]
    | cons operand operands ih =>
      rw [List.flatMap_cons, List.append_assoc, tokens_space, tokens_enclosed, ih]
      simp [enclosedTokens]
  rw [Expression.chars, tokens_enclosed, rest]
  simp [enclosedTokens]

def Divider.token : Divider → Token
  | .bar => .bar
  | .comma => .comma

theorem Divider.tokens_around (divider : Divider) (rest : List Char) :
    tokens (layout.around divider.char ++ rest) = divider.token :: tokens rest := by
  cases divider with
  | bar => exact Selector.tokens_around layout (by decide) rfl rest
  | comma => exact Selector.tokens_around layout (by decide) rfl rest

/-- The tokens of a choice are those of its alternatives, with their dividers. -/
theorem tokens_some (first : Expression) (others : List (Divider × Expression)) :
    tokens (Expression.chars layout (.some first others)) =
      enclosedTokens layout first ++
        others.flatMap fun other => other.1.token :: enclosedTokens layout other.2 := by
  have rest (alternatives : List (Divider × Expression)) :
      tokens (alternatives.flatMap fun other =>
        layout.around other.1.char ++ enclosed (other.2.chars layout)) =
        alternatives.flatMap fun other => other.1.token :: enclosedTokens layout other.2 := by
    induction alternatives with
    | nil => simp [tokens]
    | cons alternative alternatives ih =>
      obtain ⟨divider, expression⟩ := alternative
      rw [List.flatMap_cons, List.append_assoc, Divider.tokens_around, tokens_enclosed, ih]
      simp [enclosedTokens]
  rw [Expression.chars, tokens_enclosed, rest]
  simp [enclosedTokens]

theorem tokens_written_some (first : Expression) (others : List (Divider × Expression)) :
    tokens (Expression.written layout (.some first others)) =
      enclosedTokens layout (.some first others) := by
  rw [Expression.written, ← List.append_nil (enclosed _), tokens_enclosed, tokens]
  rfl

end Written

end ScopeLexer.Selector

import Mathlib.Data.List.Forall2
import ScopeLexer.Proofs.SelectorSyntax

/-! Reading a selector keeps what it means. The reader takes the tokens of a condition apart as they
were put together, and what it makes of them holds where the condition does; the names of a path are
looked for from the outside in, and the first scopes that will do will do if any will. -/
namespace ScopeLexer

namespace Scope

/-- A scope is the one that is named, or goes on after it with a dot. -/
def Continues (name scope : String) : Prop :=
  scope = name ∨ ∃ more, scope = name ++ "." ++ more

theorem dropStart?_eq_some_iff {start chars rest : List Char} :
    Text.dropStart? start chars = some rest ↔ chars = start ++ rest := by
  induction start generalizing chars with
  | nil => simp [Text.dropStart?, eq_comm]
  | cons c start ih =>
    cases chars with
    | nil => simp [Text.dropStart?]
    | cons d chars =>
      by_cases same : c = d
      · simp [Text.dropStart?, same, ih]
      · simp [Text.dropStart?, same, Ne.symm same]

/-- A name covers itself and what goes on with a dot. -/
theorem coversChars_iff {name scope : List Char} (some : name ≠ []) :
    coversChars name scope = true ↔ scope = name ∨ ∃ more, scope = name ++ '.' :: more := by
  obtain ⟨c, start, rfl⟩ := List.exists_cons_of_ne_nil some
  cases left : Text.dropStart? (c :: start) scope with
  | none =>
    have apart (rest : List Char) : scope ≠ (c :: start) ++ rest := fun same => by
      rw [dropStart?_eq_some_iff.mpr same] at left
      cases left
    have other : scope ≠ c :: start := by simpa using apart []
    simp only [coversChars, left, Bool.false_eq_true, other, apart, exists_false, or_self]
  | some rest =>
    have same := dropStart?_eq_some_iff.mp left
    simp only [coversChars, left]
    cases rest with
    | nil => simp [same]
    | cons d rest => simp [same]

theorem continues_iff {name scope : String} : Continues name scope ↔
    scope.toList = name.toList ∨ ∃ more, scope.toList = name.toList ++ '.' :: more := by
  rw [Continues, String.toList_inj]
  refine or_congr_right ⟨?_, ?_⟩
  · rintro ⟨more, rfl⟩
    exact ⟨more.toList, by simp⟩
  · rintro ⟨more, same⟩
    exact ⟨String.ofList more, String.toList_inj.mp (by simp [same])⟩

/-- A name that is not empty covers the scopes that go on after it with a dot, and itself. -/
theorem coversText_iff {name scope : String} (some : name ≠ "") :
    coversText name scope = true ↔ Continues name scope := by
  have nonempty : name.toList ≠ [] := fun none => some (String.toList_inj.mp none)
  rw [coversText, coversChars_iff nonempty, continues_iff]

end Scope

namespace Selector

namespace Expression

/-- Where a condition holds, for a path of scopes, the outermost first. The names of a path hold
where each can be given a scope that it covers, inside the scopes of the names before it. -/
def Holds (scopes : List String) : Expression → Prop
  | .path first others => ∃ taken : List String, taken.Sublist scopes ∧
    List.Forall₂ (fun (name : PathName) scope => Scope.Continues name.text scope) (first :: others)
      taken
  | .not operand => ¬ operand.Holds scopes
  | .all first others => first.Holds scopes ∧ ∀ other ∈ others, other.Holds scopes
  | .some first others => first.Holds scopes ∨ ∃ other, ∃ _ : other ∈ others, other.2.Holds scopes
termination_by expression => sizeOf expression
decreasing_by
  any_goals decreasing_tactic
  exact sizeOf_alternative ‹_›

end Expression

section Meaning

/-- What has been read holds where a condition does. -/
def Agrees (matcher : Matcher) (expression : Expression) : Prop :=
  ∀ scopes, matcher.holds scopes = true ↔ expression.Holds scopes

theorem holds_conjunctionOf (scopes : List String) (operands : List Matcher) :
    (conjunctionOf operands).holds scopes = Matcher.allHold scopes operands := by
  match operands with
  | [] => rfl
  | [one] => simp [conjunctionOf, Matcher.allHold]
  | _ :: _ :: _ => simp [conjunctionOf, Matcher.holds]

theorem holds_alternativeOf (scopes : List String) (alternatives : List Matcher) :
    (alternativeOf alternatives).holds scopes = Matcher.someHolds scopes alternatives := by
  match alternatives with
  | [] => rfl
  | [one] => simp [alternativeOf, Matcher.someHolds]
  | _ :: _ :: _ => simp [alternativeOf, Matcher.holds]

variable {matchers : List Matcher} {expressions : List Expression}

theorem allHold_iff (agree : List.Forall₂ Agrees matchers expressions) (scopes : List String) :
    Matcher.allHold scopes matchers = true ↔ ∀ other ∈ expressions, other.Holds scopes := by
  induction agree with
  | nil => simp [Matcher.allHold]
  | cons first _ ih => simp [Matcher.allHold, first scopes, ih]

theorem someHolds_iff (agree : List.Forall₂ Agrees matchers expressions) (scopes : List String) :
    Matcher.someHolds scopes matchers = true ↔ ∃ other ∈ expressions, other.Holds scopes := by
  induction agree with
  | nil => simp [Matcher.someHolds]
  | cons first _ ih => simp [Matcher.someHolds, first scopes, ih]

theorem agrees_not {read : Matcher} (agrees : Agrees read operand) :
    Agrees (.not read) (.not operand) := by
  intro scopes
  rw [Matcher.holds, Expression.Holds, ← agrees scopes, Bool.not_eq_true', Bool.not_eq_true]

theorem agrees_all (agree : List.Forall₂ Agrees matchers (first :: others)) :
    Agrees (conjunctionOf matchers) (.all first others) := by
  intro scopes
  rw [holds_conjunctionOf, allHold_iff agree, Expression.Holds, List.forall_mem_cons]

theorem agrees_some (agree : List.Forall₂ Agrees matchers (first :: others.map Prod.snd)) :
    Agrees (alternativeOf matchers) (.some first others) := by
  intro scopes
  rw [holds_alternativeOf, someHolds_iff agree, Expression.Holds, List.exists_mem_cons_iff]
  simp only [List.mem_map, exists_prop, exists_exists_and_eq_and]

/-- A name takes the first scope that it covers. -/
theorem pathFound_cons (name : PathName) (names : List Scope) (scope : String)
    (scopes : List String) :
    Matcher.pathFound (⟨name.text⟩ :: names) (scope :: scopes) =
      if Scope.coversText name.text scope then Matcher.pathFound names scopes
      else Matcher.pathFound (⟨name.text⟩ :: names) scopes := by
  by_cases covers : Scope.coversText name.text scope = true
  · have named : scope.isEmpty = false := by
      rw [Scope.coversText_iff name.text_ne_empty] at covers
      rw [← Bool.not_eq_true, String.isEmpty_iff]
      rintro rfl
      rcases covers with same | ⟨more, same⟩
      · exact name.text_ne_empty same.symm
      · simpa using congrArg String.toList same
    simp [Matcher.pathFound, Scope.covers, covers, named]
  · simp [Matcher.pathFound, Scope.covers, covers]

/-- The first scopes that will do will do if any will. -/
theorem pathFound_iff (names : List PathName) (scopes : List String) :
    Matcher.pathFound (names.map fun name => ⟨name.text⟩) scopes = true ↔
      ∃ taken : List String, taken.Sublist scopes ∧
        List.Forall₂ (fun (name : PathName) scope => Scope.Continues name.text scope) names
          taken := by
  induction scopes generalizing names with
  | nil => cases names <;> simp [Matcher.pathFound]
  | cons scope scopes ih =>
    cases names with
    | nil => simp [Matcher.pathFound]
    | cons name names =>
      rw [List.map_cons, pathFound_cons]
      split
      next covers =>
        have continues := (Scope.coversText_iff name.text_ne_empty).mp covers
        rw [ih]
        constructor
        · rintro ⟨taken, inside, covered⟩
          exact ⟨scope :: taken, inside.cons_cons scope, .cons continues covered⟩
        · rintro ⟨_, inside, _ | ⟨_, covered⟩⟩
          exact ⟨_, inside.tail, covered⟩
      next apart =>
        rw [Scope.coversText_iff name.text_ne_empty] at apart
        refine (ih (name :: names)).trans ⟨?_, ?_⟩
        · rintro ⟨taken, inside, covered⟩
          exact ⟨taken, inside.cons scope, covered⟩
        · rintro ⟨taken, inside, covered⟩
          refine ⟨taken, ?_, covered⟩
          cases inside with
          | cons _ inside => exact inside
          | cons_cons _ inside =>
            cases covered with
            | cons continues _ => exact absurd continues apart

theorem agrees_path (first : PathName) (others : List PathName) :
    Agrees (.path ((first :: others).map fun name => ⟨name.text⟩)) (.path first others) := by
  intro scopes
  rw [Matcher.holds, Expression.Holds, Bool.and_eq_true, pathFound_iff, decide_eq_true_eq,
    List.length_map, and_iff_right_iff_imp]
  rintro ⟨taken, inside, covered⟩
  rw [covered.length_eq]
  exact inside.length_le

end Meaning

section Reading

variable (layout : Layout)

/-- No operand starts here: the tokens are over, or one of them ends a condition. -/
inductive Ends : List Token → Prop where
  | nil : Ends []
  | closeParen (rest : List Token) : Ends (.closeParen :: rest)
  | comma (rest : List Token) : Ends (.comma :: rest)
  | bar (rest : List Token) : Ends (.bar :: rest)

theorem Divider.ends (divider : Divider) (rest : List Token) : Ends (divider.token :: rest) := by
  cases divider with
  | bar => exact .bar rest
  | comma => exact .comma rest

theorem readOperand_ends (ends : Ends rest) (steps : Nat) : readOperand steps rest = (none, rest) := by
  cases steps with
  | zero => rw [readOperand]
  | succ steps => cases ends <;> rfl

theorem readOperands_ends (ends : Ends rest) (steps : Nat) : readOperands steps rest = ([], rest) := by
  cases steps with
  | zero => rw [readOperands]
  | succ steps => rw [readOperands, readOperand_ends ends]

/-- The names of a path are read together. -/
theorem readOperand_path (first : PathName) (others : List PathName) (ends : Ends rest)
    (steps : Nat) :
    readOperand (steps + 1) ((first :: others).map (fun name => .name name.text) ++ rest) =
      (some (.path ((first :: others).map fun name => ⟨name.text⟩)), rest) := by
  have leading (names : List PathName) :
      leadingNames (names.map (fun name => .name name.text) ++ rest) =
          names.map (fun name => ⟨name.text⟩) ∧
        afterNames (names.map (fun name => .name name.text) ++ rest) = rest := by
    induction names with
    | nil => cases ends <;> exact ⟨rfl, rfl⟩
    | cons name names ih =>
      simp only [List.map_cons, List.cons_append, leadingNames, afterNames, isPathName,
        name.isIdentifier_text, name.scopeOfName_text, if_true, List.dropWhile_cons, List.cons.injEq,
        true_and] at ih ⊢
      exact ih
  have named : (((first :: others).map (fun name => Token.name name.text) ++ rest).head?.any
      isPathName) = true := by
    simp [isPathName, first.isIdentifier_text]
  obtain ⟨names, after⟩ := leading (first :: others)
  rw [List.map_cons, List.cons_append] at named names after ⊢
  simp only [readOperand, named, if_true, names, after]

/-- A condition in parentheses is read up to the end of the parentheses. -/
def Reads (expression : Expression) : Prop :=
  ∀ steps rest, 3 * (tokens (expression.chars layout)).length + 2 ≤ steps →
    ∃ alternatives,
      readAlternatives steps (tokens (expression.chars layout) ++ .closeParen :: rest) =
        (alternatives, .closeParen :: rest) ∧
      Agrees (alternativeOf alternatives) expression

variable {layout}

theorem readOperand_enclosed (reads : Reads layout expression)
    (enough : 3 * (enclosedTokens layout expression).length ≤ steps) (rest : List Token) :
    ∃ operand, readOperand steps (enclosedTokens layout expression ++ rest) = (some operand, rest) ∧
      Agrees operand expression := by
  simp only [enclosedTokens, List.length_cons, List.length_append] at enough
  obtain ⟨steps, rfl⟩ : ∃ fewer, steps = fewer + 1 := ⟨steps - 1, by omega⟩
  obtain ⟨alternatives, run, agrees⟩ := reads steps rest (by omega)
  refine ⟨alternativeOf alternatives, ?_, agrees⟩
  rw [enclosedTokens, List.cons_append, List.append_assoc, List.singleton_append, readOperand, run]
  rfl

/-- Operands in parentheses are read one after the other. -/
theorem readOperands_enclosed {operands : List Expression}
    (reads : ∀ operand ∈ operands, Reads layout operand) (ends : Ends rest)
    (enough : 3 * (operands.flatMap (enclosedTokens layout)).length + 1 ≤ steps) :
    ∃ matchers,
      readOperands steps (operands.flatMap (enclosedTokens layout) ++ rest) = (matchers, rest) ∧
      List.Forall₂ Agrees matchers operands := by
  induction operands generalizing steps with
  | nil => exact ⟨[], readOperands_ends ends steps, .nil⟩
  | cons operand operands ih =>
    rw [List.flatMap_cons, List.length_append] at enough
    have long : 2 ≤ (enclosedTokens layout operand).length := by simp [enclosedTokens]
    obtain ⟨steps, rfl⟩ : ∃ fewer, steps = fewer + 1 := ⟨steps - 1, by omega⟩
    obtain ⟨first, run, agrees⟩ := readOperand_enclosed (reads operand List.mem_cons_self)
      (show _ ≤ steps by omega) (operands.flatMap (enclosedTokens layout) ++ rest)
    obtain ⟨others, runs, agree⟩ := ih (fun other member => reads other (List.mem_cons_of_mem _ member))
      (show _ ≤ steps by omega)
    refine ⟨first :: others, ?_, .cons agrees agree⟩
    rw [List.flatMap_cons, List.append_assoc, readOperands, run]
    simp only [runs]

/-- Alternatives in parentheses are read one after the other. -/
theorem readAlternatives_enclosed {first : Expression} {others : List (Divider × Expression)}
    (reads : ∀ other ∈ first :: others.map Prod.snd, Reads layout other)
    (enough : 3 * (enclosedTokens layout first ++ others.flatMap fun other =>
      other.1.token :: enclosedTokens layout other.2).length + 2 ≤ steps) (rest : List Token) :
    ∃ matchers,
      readAlternatives steps (enclosedTokens layout first ++ (others.flatMap fun other =>
        other.1.token :: enclosedTokens layout other.2) ++ .closeParen :: rest) =
          (matchers, .closeParen :: rest) ∧
      List.Forall₂ Agrees matchers (first :: others.map Prod.snd) := by
  have operand {expression : Expression} {steps : Nat} {rest : List Token}
      (reads : Reads layout expression) (ends : Ends rest)
      (enough : 3 * (enclosedTokens layout expression).length + 1 ≤ steps) : ∃ read,
      readOperands steps (enclosedTokens layout expression ++ rest) = ([read], rest) ∧
        Agrees read expression := by
    have reads : ∀ operand ∈ [expression], Reads layout operand := by simpa using reads
    obtain ⟨matchers, run, agree⟩ := readOperands_enclosed reads ends (by simpa using enough)
    cases agree with
    | cons agrees none =>
      cases none
      exact ⟨_, by simpa using run, agrees⟩
  induction others generalizing first steps with
  | nil =>
    simp only [List.flatMap_nil, List.append_nil] at enough ⊢
    obtain ⟨steps, rfl⟩ : ∃ fewer, steps = fewer + 1 := ⟨steps - 1, by omega⟩
    obtain ⟨read, run, agrees⟩ := operand (reads first List.mem_cons_self)
      (.closeParen rest) (show _ ≤ steps by omega)
    refine ⟨[read], ?_, .cons agrees .nil⟩
    rw [readAlternatives, run]
    rfl
  | cons other others ih =>
    obtain ⟨divider, second⟩ := other
    simp only [List.flatMap_cons, List.length_append, List.length_cons] at enough
    obtain ⟨steps, rfl⟩ : ∃ fewer, steps = fewer + 1 := ⟨steps - 1, by omega⟩
    obtain ⟨read, run, agrees⟩ := operand (reads first List.mem_cons_self)
      (divider.ends (enclosedTokens layout second ++ (others.flatMap fun other =>
        other.1.token :: enclosedTokens layout other.2) ++ .closeParen :: rest))
      (show _ ≤ steps by omega)
    have shorter : 3 * (enclosedTokens layout second ++ others.flatMap fun other =>
        other.1.token :: enclosedTokens layout other.2).length + 2 ≤ steps := by
      rw [List.length_append]
      omega
    obtain ⟨matchers, runs, agree⟩ :=
      ih (fun other member => reads other (List.mem_cons_of_mem _ member)) shorter
    refine ⟨read :: matchers, ?_, .cons agrees agree⟩
    have divides : (divider.token :: (enclosedTokens layout second ++ (others.flatMap fun other =>
        other.1.token :: enclosedTokens layout other.2) ++ .closeParen :: rest)).dropWhile isDivider =
        enclosedTokens layout second ++ (others.flatMap fun other =>
          other.1.token :: enclosedTokens layout other.2) ++ .closeParen :: rest := by
      cases divider <;> rfl
    have divided : isDivider divider.token = true := by cases divider <;> rfl
    have split : enclosedTokens layout first ++ (((divider, second) :: others).flatMap fun other =>
        other.1.token :: enclosedTokens layout other.2) ++ .closeParen :: rest =
        enclosedTokens layout first ++ divider.token :: (enclosedTokens layout second ++
          (others.flatMap fun other => other.1.token :: enclosedTokens layout other.2) ++
            .closeParen :: rest) := by
      simp
    rw [split, readAlternatives, run]
    simp only [List.head?_cons, Option.any_some, divided, if_true, divides, runs]
    rfl

/-- Whatever has been read as operands up to a closing parenthesis is the one alternative. -/
theorem readAlternatives_of_operands {steps : Nat} (run : readOperands steps chars =
      (operands, .closeParen :: rest)) :
    readAlternatives (steps + 1) chars = ([conjunctionOf operands], .closeParen :: rest) := by
  rw [readAlternatives, run]
  rfl

theorem readOperands_path (layout : Layout) (first : PathName) (others : List PathName)
    (ends : Ends rest) (enough : 2 ≤ steps) : ∃ operands,
      readOperands steps (tokens (Expression.chars layout (.path first others)) ++ rest) =
        (operands, rest) ∧ Agrees (conjunctionOf operands) (.path first others) := by
  obtain ⟨steps, rfl⟩ : ∃ fewer, steps = fewer + 2 := ⟨steps - 2, by omega⟩
  refine ⟨[_], ?_, agrees_path first others⟩
  rw [tokens_path, readOperands, readOperand_path first others ends]
  simp only [readOperands_ends ends]

theorem readOperands_not (reads : Reads layout operand) (ends : Ends rest)
    (enough : 3 * (enclosedTokens layout operand).length + 2 ≤ steps) : ∃ operands,
      readOperands steps (tokens (Expression.chars layout (.not operand)) ++ rest) =
        (operands, rest) ∧ Agrees (conjunctionOf operands) (.not operand) := by
  obtain ⟨steps, rfl⟩ : ∃ fewer, steps = fewer + 2 := ⟨steps - 2, by omega⟩
  obtain ⟨read, run, agrees⟩ := readOperand_enclosed reads (show _ ≤ steps by omega) rest
  refine ⟨[_], ?_, agrees_not agrees⟩
  rw [tokens_not, readOperands, List.cons_append, readOperand, run]
  simp only [readOperands_ends ends, Option.getD_some]

theorem readOperands_all (reads : ∀ other ∈ first :: others, Reads layout other) (ends : Ends rest)
    (enough : 3 * ((first :: others).flatMap (enclosedTokens layout)).length + 1 ≤ steps) :
    ∃ operands,
      readOperands steps (tokens (Expression.chars layout (.all first others)) ++ rest) =
        (operands, rest) ∧ Agrees (conjunctionOf operands) (.all first others) := by
  obtain ⟨operands, run, agree⟩ := readOperands_enclosed reads ends enough
  rw [tokens_all]
  exact ⟨operands, run, agrees_all agree⟩

/-- Every expression, however it is laid out, is read as its condition. -/
theorem reads (expression : Expression) : Reads layout expression := by
  induction expression using Expression.induction with
  | path first others =>
    intro steps rest enough
    obtain ⟨steps, rfl⟩ : ∃ fewer, steps = fewer + 1 := ⟨steps - 1, by omega⟩
    rw [tokens_path, List.length_map, List.length_cons] at enough
    obtain ⟨operands, run, agrees⟩ :=
      readOperands_path layout first others (.closeParen rest) (show 2 ≤ steps by omega)
    exact ⟨_, readAlternatives_of_operands run, agrees⟩
  | not operand ih =>
    intro steps rest enough
    obtain ⟨steps, rfl⟩ : ∃ fewer, steps = fewer + 1 := ⟨steps - 1, by omega⟩
    rw [tokens_not, List.length_cons] at enough
    obtain ⟨operands, run, agrees⟩ := readOperands_not ih (.closeParen rest) (show _ ≤ steps by omega)
    exact ⟨_, readAlternatives_of_operands run, agrees⟩
  | all first others ihFirst ihOthers =>
    intro steps rest enough
    obtain ⟨steps, rfl⟩ : ∃ fewer, steps = fewer + 1 := ⟨steps - 1, by omega⟩
    rw [tokens_all] at enough
    obtain ⟨operands, run, agrees⟩ := readOperands_all (List.forall_mem_cons.mpr ⟨ihFirst, ihOthers⟩)
      (.closeParen rest) (show _ ≤ steps by omega)
    exact ⟨_, readAlternatives_of_operands run, agrees⟩
  | some first others ihFirst ihOthers =>
    intro steps rest enough
    rw [tokens_some] at enough ⊢
    have reads : ∀ other ∈ first :: others.map Prod.snd, Reads layout other := by
      simpa using ⟨ihFirst, fun other divider member => ihOthers (divider, other) member⟩
    obtain ⟨alternatives, run, agree⟩ := readAlternatives_enclosed reads enough rest
    exact ⟨alternatives, run, agrees_some agree⟩

/-- A condition by itself is read up to what ends it. -/
theorem readOperands_written (expression : Expression) (ends : Ends rest)
    (enough : 3 * (tokens (expression.written layout)).length + 2 ≤ steps) : ∃ operands,
      readOperands steps (tokens (expression.written layout) ++ rest) = (operands, rest) ∧
        Agrees (conjunctionOf operands) expression := by
  cases expression with
  | path first others =>
    exact readOperands_path layout first others ends (Nat.le_of_add_left_le enough)
  | not operand =>
    rw [Expression.written, tokens_not, List.length_cons] at enough
    exact readOperands_not (reads operand) ends (by omega)
  | all first others =>
    rw [Expression.written, tokens_all] at enough
    exact readOperands_all (fun other _ => reads other) ends (by omega)
  | some first others =>
    rw [tokens_written_some] at enough ⊢
    obtain ⟨steps, rfl⟩ : ∃ fewer, steps = fewer + 1 := ⟨steps - 1, by omega⟩
    have fewer : 3 * (enclosedTokens layout (.some first others)).length ≤ steps := by omega
    obtain ⟨read, run, agrees⟩ := readOperand_enclosed (reads _) fewer rest
    refine ⟨[read], ?_, agrees⟩
    rw [readOperands, run]
    simp only [readOperands_ends ends]

end Reading

section Lists

def mark : Priority → List Char
  | .left => ['L', ':']
  | .right => ['R', ':']
  | .default => []

/-- A condition with its priority before it. -/
def marked (layout : Layout) (item : Priority × Expression) : List Char :=
  mark item.1 ++ item.2.written layout

/-- Conditions with their priorities, divided by commas. -/
def listed (layout : Layout) : List (Priority × Expression) → List Char
  | [] => []
  | item :: items =>
    marked layout item ++ items.flatMap fun other => layout.around ',' ++ marked layout other

def markTokens : Priority → List Token
  | .left => [.left]
  | .right => [.right]
  | .default => []

variable (layout : Layout)

theorem tokens_marked (item : Priority × Expression) :
    tokens (marked layout item) = markTokens item.1 ++ tokens (item.2.written layout) := by
  obtain ⟨priority, expression⟩ := item
  cases priority <;> simp [marked, mark, markTokens, tokens]

/-- The tokens of a list are those of its items with commas between. -/
theorem tokens_listed (item : Priority × Expression) (items : List (Priority × Expression)) :
    tokens (listed layout (item :: items)) =
      tokens (marked layout item) ++
        items.flatMap fun other => .comma :: tokens (marked layout other) := by
  have rest (items : List (Priority × Expression)) :
      Stops (items.flatMap fun other => layout.around ',' ++ marked layout other) ∧
        tokens (items.flatMap fun other => layout.around ',' ++ marked layout other) =
          items.flatMap fun other => .comma :: tokens (marked layout other) := by
    induction items with
    | nil => exact ⟨stops_nil, by simp [tokens]⟩
    | cons other items ih =>
      rw [List.flatMap_cons, List.append_assoc, tokens_around layout (by decide) rfl,
        tokens_append ih.1, ih.2]
      exact ⟨stops_around layout (by decide) _, rfl⟩
  rw [listed, tokens_append (rest items).1, (rest items).2]

/-- A condition has a first token, which is no mark of priority. -/
theorem tokens_written_starts (expression : Expression) : ∃ token more,
    tokens (expression.written layout) = token :: more ∧ token ≠ .left ∧ token ≠ .right := by
  cases expression with
  | path first others => exact ⟨_, _, tokens_path layout first others, nofun, nofun⟩
  | not operand => exact ⟨_, _, tokens_not layout operand, nofun, nofun⟩
  | all first others => exact ⟨_, _, tokens_all layout first others, nofun, nofun⟩
  | some first others => exact ⟨_, _, tokens_written_some layout first others, nofun, nofun⟩

theorem readPriority_marked (item : Priority × Expression) (rest : List Token) :
    readPriority (tokens (marked layout item) ++ rest) =
      (item.1, tokens (item.2.written layout) ++ rest) := by
  obtain ⟨priority, expression⟩ := item
  rw [tokens_marked]
  cases priority with
  | left => rfl
  | right => rfl
  | default =>
    obtain ⟨token, more, starts, notLeft, notRight⟩ := tokens_written_starts layout expression
    simp [markTokens, starts, readPriority, notLeft, notRight]

/-- A selector has the priority of an item, and holds where its condition does. -/
def Means (item : Priority × Expression) (selector : Selector) : Prop :=
  selector.priority = item.1 ∧ Agrees selector.matcher item.2

/-- The first selector is read up to what ends it, and a comma leads to the next. -/
theorem readSelectors_marked (item : Priority × Expression) (ends : Ends rest) (count : Nat) :
    ∃ selector, Means item selector ∧
      readSelectors (count + 1) (tokens (marked layout item) ++ rest) =
        match rest with
        | .comma :: rest => selector :: readSelectors count rest
        | _ => [selector] := by
  obtain ⟨operands, run, agrees⟩ := readOperands_written item.2 ends
    (show 3 * (tokens (item.2.written layout)).length + 2 ≤
      stepsFor (tokens (item.2.written layout) ++ rest) by rw [stepsFor, List.length_append]; omega)
  refine ⟨⟨conjunctionOf operands, item.1⟩, ⟨rfl, agrees⟩, ?_⟩
  rw [readSelectors, readPriority_marked]
  · simp only [run]
    cases ends <;> rfl
  · obtain ⟨token, more, starts, _⟩ := tokens_written_starts layout item.2
    simp [tokens_marked, starts]

/-- A list of selectors is read as its items, each with its priority and its meaning. -/
theorem readSelectors_listed (item : Priority × Expression) (items : List (Priority × Expression))
    (enough : items.length < count) :
    List.Forall₂ Means (item :: items)
      (readSelectors count (tokens (listed layout (item :: items)))) := by
  rw [tokens_listed]
  induction items generalizing item count with
  | nil =>
    obtain ⟨count, rfl⟩ : ∃ fewer, count = fewer + 1 := ⟨count - 1, by omega⟩
    obtain ⟨selector, means, run⟩ := readSelectors_marked layout item .nil count
    rw [List.flatMap_nil, run]
    exact .cons means .nil
  | cons other items ih =>
    rw [List.length_cons] at enough
    obtain ⟨count, rfl⟩ : ∃ fewer, count = fewer + 1 := ⟨count - 1, by omega⟩
    rw [List.flatMap_cons, List.cons_append]
    obtain ⟨selector, means, run⟩ := readSelectors_marked layout item (.comma _) count
    rw [run]
    exact .cons means (ih other (by omega))

/-- Reading a list of selectors gives one for each item, with its priority, and it holds for a path
of scopes where the condition of the item does. -/
theorem parse_keeps_meaning (layout : Layout) (items : List (Priority × Expression)) :
    List.Forall₂ (fun (item : Priority × Expression) (selector : Selector) =>
        selector.priority = item.1 ∧
          ∀ scopes, selector.matcher.holds scopes = true ↔ item.2.Holds scopes)
      items (parse (String.ofList (listed layout items))) := by
  rw [parse, String.toList_ofList]
  cases items with
  | nil =>
    rw [listed, tokens]
    exact .nil
  | cons item items =>
    refine readSelectors_listed layout item items (Nat.lt_succ_of_le ?_)
    -- Each of the other items has a comma before it.
    rw [tokens_listed, List.length_append]
    have commas : items.length ≤
        (items.flatMap fun other => Token.comma :: tokens (marked layout other)).length := by
      induction items with
      | nil => exact Nat.le_refl 0
      | cons other items ih => simp only [List.flatMap_cons, List.length_append, List.length_cons]; omega
    omega

end Lists

end Selector
end ScopeLexer

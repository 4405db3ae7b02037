import ScopeLexer.Proofs.SelectorMeaning

/-!
What stands in a selector, whatever its text. The tokens that the reader takes are those of a tree: names
in a row, operands with minus signs before them, and alternatives after an opening parenthesis that may
never be closed. A minus sign with no operand after it is a leaf of its own. The reader makes of a tree
what its parts say, so a dangling minus adds nothing to the conjunction it stands in: it holds everywhere,
since what it negates holds nowhere.
-/
namespace ScopeLexer.Selector

/-- A name that can stand in a path. -/
structure Identifier where
  text : String
  named : isIdentifier text = true

mutual

/-- An operand as it stands in a selector. -/
inductive Operand where
  /-- A path of names. -/
  | path (first : Identifier) (others : List Identifier)
  /-- An operand with a minus sign before it. -/
  | negated (operand : Operand)
  /-- A minus sign with no operand after it. -/
  | dangling
  /-- Alternatives after an opening parenthesis, with the closing one or without. -/
  | group (alternatives : Alternatives) (closed : Bool)

/-- Alternatives, each a conjunction of operands, with one or more dividers between two. -/
inductive Alternatives where
  | last (operands : List Operand)
  | more (operands : List Operand) (divider : Divider) (others : List Divider)
    (alternatives : Alternatives)

end

section Trees

mutual

def Operand.tokens : Operand → List Token
  | .path first others => (first :: others).map fun name => .name name.text
  | .negated operand => .minus :: operand.tokens
  | .dangling => [.minus]
  | .group alternatives closed =>
    .openParen :: (alternatives.tokens ++ if closed then [.closeParen] else [])

def tokensOf : List Operand → List Token
  | [] => []
  | operand :: operands => operand.tokens ++ tokensOf operands

def Alternatives.tokens : Alternatives → List Token
  | .last operands => tokensOf operands
  | .more operands divider others alternatives =>
    tokensOf operands ++ ((divider :: others).map Divider.token ++ alternatives.tokens)

end

mutual

def Operand.matcher : Operand → Matcher
  | .path first others => .path ((first :: others).map fun name => scopeOfName name.text)
  | .negated operand => .not operand.matcher
  | .dangling => .not missingOperand
  | .group alternatives _ => alternativeOf alternatives.matchers

/-- What is made of each operand. -/
def matchersOf : List Operand → List Matcher
  | [] => []
  | operand :: operands => operand.matcher :: matchersOf operands

/-- What is made of each alternative. -/
def Alternatives.matchers : Alternatives → List Matcher
  | .last operands => [conjunctionOf (matchersOf operands)]
  | .more operands _ _ alternatives => conjunctionOf (matchersOf operands) :: alternatives.matchers

end

mutual

/-- The conjunctions in the parentheses of an operand, at any depth. -/
def Operand.conjunctions : Operand → List (List Operand)
  | .path .. => []
  | .negated operand => operand.conjunctions
  | .dangling => []
  | .group alternatives _ => alternatives.conjunctions

/-- The conjunctions in the parentheses of operands. -/
def conjunctionsIn : List Operand → List (List Operand)
  | [] => []
  | operand :: operands => operand.conjunctions ++ conjunctionsIn operands

/-- The alternatives, and the conjunctions in their parentheses. -/
def Alternatives.conjunctions : Alternatives → List (List Operand)
  | .last operands => operands :: conjunctionsIn operands
  | .more operands _ _ alternatives =>
    operands :: (conjunctionsIn operands ++ alternatives.conjunctions)

end

/-- A dangling minus with some minus signs before it. -/
def danglingAfter : Nat → Operand
  | 0 => .dangling
  | signs + 1 => .negated (danglingAfter signs)

/-- Nothing follows a dangling minus in its conjunction. -/
def Settled (operands : List Operand) : Prop :=
  ∀ front signs back, operands = front ++ danglingAfter signs :: back → back = []

/-- An operand can be put before others if it does not dangle, or there are no others. -/
theorem Settled.cons (settled : Settled operands)
    (last : ∀ signs, operand = danglingAfter signs → operands = []) :
    Settled (operand :: operands) := by
  intro front signs back same
  cases front with
  | nil =>
    obtain ⟨here, rest⟩ := List.cons.inj same
    rw [← rest]
    exact last signs here
  | cons first front => exact settled front signs back (List.cons.inj same).2

end Trees

section Meaning

theorem allHold_matchersOf (scopes : List String) (operands : List Operand) :
    Matcher.allHold scopes (matchersOf operands) = true ↔
      ∀ operand ∈ operands, operand.matcher.holds scopes = true := by
  induction operands with
  | nil => simp [matchersOf, Matcher.allHold]
  | cons operand operands ih => simp [matchersOf, Matcher.allHold, ih]

/-- A dangling minus holds everywhere, and each sign before it turns that round. -/
theorem holds_danglingAfter (scopes : List String) (signs : Nat) :
    (danglingAfter signs).matcher.holds scopes = true ↔ signs % 2 = 0 := by
  induction signs with
  | zero => simp [danglingAfter, Operand.matcher, missingOperand, Matcher.holds, Matcher.allHold]
  | succ signs ih =>
    rw [danglingAfter, Operand.matcher, Matcher.holds, Bool.not_eq_true', ← Bool.not_eq_true, ih]
    omega

/-- What is made of a conjunction that ends with a dangling minus. -/
theorem holds_dangling (front : List Operand) (signs : Nat) (scopes : List String) :
    (conjunctionOf (matchersOf (front ++ [danglingAfter signs]))).holds scopes = true ↔
      signs % 2 = 0 ∧ ∀ operand ∈ front, operand.matcher.holds scopes = true := by
  rw [holds_conjunctionOf, allHold_matchersOf, List.forall_mem_append, List.forall_mem_singleton,
    holds_danglingAfter, and_comm]

end Meaning

section Reading

/-- Whether an operand starts here. -/
def startsOperand (tokens : List Token) : Bool :=
  tokens.head?.any fun token => token = .minus || token = .openParen || isPathName token

/-- An operand is read from the start of some tokens, or there is none. -/
inductive ReadsOperand (tokens : List Token) : Option Matcher × List Token → Prop where
  | absent (ends : startsOperand tokens = false) : ReadsOperand tokens (none, tokens)
  | present (operand : Operand) {rest : List Token} (whole : tokens = operand.tokens ++ rest)
    (settled : ∀ conjunction ∈ operand.conjunctions, Settled conjunction)
    (last : ∀ signs, operand = danglingAfter signs → startsOperand rest = false) :
    ReadsOperand tokens (some operand.matcher, rest)

/-- All operands are read from the start of some tokens. -/
inductive ReadsOperands (tokens : List Token) : List Matcher × List Token → Prop where
  | intro (operands : List Operand) {rest : List Token} (whole : tokens = tokensOf operands ++ rest)
    (settled : ∀ conjunction ∈ operands :: conjunctionsIn operands, Settled conjunction)
    (ends : startsOperand rest = false) : ReadsOperands tokens (matchersOf operands, rest)

/-- All alternatives are read from the start of some tokens. -/
inductive ReadsAlternatives (tokens : List Token) : List Matcher × List Token → Prop where
  | intro (alternatives : Alternatives) {rest : List Token}
    (whole : tokens = alternatives.tokens ++ rest)
    (settled : ∀ conjunction ∈ alternatives.conjunctions, Settled conjunction)
    (ends : startsOperand rest = false) : ReadsAlternatives tokens (alternatives.matchers, rest)

variable {tokens rest : List Token}

theorem startsOperand_tokens (operand : Operand) (rest : List Token) :
    startsOperand (operand.tokens ++ rest) = true := by
  cases operand with
  | path first others => simp [Operand.tokens, startsOperand, isPathName, first.named]
  | _ => rfl

theorem Operand.tokens_ne_nil (operand : Operand) : operand.tokens ≠ [] := by
  cases operand <;> simp [Operand.tokens]

theorem length_dropWhile_lt {among : Token → Bool} (starts : tokens.head?.any among = true) :
    (tokens.dropWhile among).length < tokens.length := by
  cases tokens with
  | nil => cases starts
  | cons token tokens =>
    have first : among token = true := starts
    rw [List.dropWhile_cons_of_pos first, List.length_cons]
    exact Nat.lt_succ_of_le (List.dropWhile_sublist among).length_le

/-- The names at the start of some tokens. -/
theorem leadingNames_eq (tokens : List Token) : ∃ names : List Identifier,
    leadingNames tokens = names.map (fun name => scopeOfName name.text) ∧
      tokens = names.map (fun name => .name name.text) ++ afterNames tokens := by
  induction tokens with
  | nil => exact ⟨[], rfl, rfl⟩
  | cons token tokens ih =>
    by_cases named : isPathName token = true
    · obtain ⟨names, leading, whole⟩ := ih
      cases token with
      | name text =>
        have identifier : isIdentifier text = true := named
        refine ⟨⟨text, identifier⟩ :: names, ?_, ?_⟩
        · rw [leadingNames, if_pos identifier, leading, List.map_cons]
        · rw [afterNames, List.dropWhile_cons_of_pos named, List.map_cons, List.cons_append,
            List.cons.injEq]
          exact ⟨rfl, whole⟩
      | _ => cases named
    · refine ⟨[], ?_, ?_⟩
      · cases token with
        | name text => exact if_neg named
        | _ => rfl
      · rw [afterNames, List.dropWhile_cons_of_neg named]
        rfl

/-- The dividers at the start of some tokens. -/
theorem dropWhile_dividers (tokens : List Token) : ∃ dividers : List Divider,
    tokens = dividers.map Divider.token ++ tokens.dropWhile isDivider := by
  induction tokens with
  | nil => exact ⟨[], rfl⟩
  | cons token tokens ih =>
    obtain ⟨dividers, whole⟩ := ih
    cases token with
    | bar => exact ⟨.bar :: dividers, congrArg (.bar :: ·) whole⟩
    | comma => exact ⟨.comma :: dividers, congrArg (.comma :: ·) whole⟩
    | _ => exact ⟨[], rfl⟩

/-- A closing parenthesis is taken if there is one. -/
theorem afterClose_eq (rest : List Token) : ∃ closed : Bool,
    rest = (if closed then [.closeParen] else []) ++ afterClose rest := by
  unfold afterClose
  split
  · exact ⟨true, rfl⟩
  · exact ⟨false, rfl⟩

/-- An operand that begins with a name is the path of the names that follow one another. -/
theorem readsOperand_path (named : tokens.head?.any isPathName = true) :
    ReadsOperand tokens (some (.path (leadingNames tokens)), afterNames tokens) := by
  obtain ⟨names, leading, whole⟩ := leadingNames_eq tokens
  cases names with
  | nil =>
    -- The first token is a name, so there is one.
    have shorter := length_dropWhile_lt named
    rw [List.map_nil, List.nil_append] at whole
    rw [← afterNames, ← whole] at shorter
    exact absurd shorter (Nat.lt_irrefl _)
  | cons first others =>
    rw [leading]
    refine .present (.path first others) whole ?_ ?_
    · rintro conjunction ⟨⟩
    · rintro (_ | signs) ⟨⟩

/-- A minus sign is read with the operand after it, or alone. -/
theorem ReadsOperand.minus {operand : Option Matcher} (read : ReadsOperand tokens (operand, rest)) :
    ReadsOperand (.minus :: tokens) (some (.not (operand.getD missingOperand)), rest) := by
  cases read with
  | absent ends =>
    refine .present .dangling rfl ?_ fun _ _ => ends
    rintro conjunction ⟨⟩
  | present operand whole settled last =>
    refine .present (.negated operand) (congrArg (.minus :: ·) whole) settled ?_
    rintro (_ | signs) same
    · cases same
    · exact last signs (Operand.negated.inj same)

/-- Alternatives are read with the parentheses around them. -/
theorem ReadsAlternatives.enclosed (read : ReadsAlternatives tokens (matchers, rest)) :
    ReadsOperand (.openParen :: tokens) (some (alternativeOf matchers), afterClose rest) := by
  cases read with
  | intro alternatives whole settled ends =>
    obtain ⟨closed, after⟩ := afterClose_eq rest
    refine .present (.group alternatives closed) ?_ settled ?_
    · rw [whole, Operand.tokens, List.cons_append, List.append_assoc, ← after]
    · rintro (_ | signs) ⟨⟩

/-- An operand is read, and then the others. -/
theorem ReadsOperands.cons {operand : Operand} (whole : tokens = operand.tokens ++ rest)
    (settled : ∀ conjunction ∈ operand.conjunctions, Settled conjunction)
    (last : ∀ signs, operand = danglingAfter signs → startsOperand rest = false)
    (read : ReadsOperands rest (matchers, after)) :
    ReadsOperands tokens (operand.matcher :: matchers, after) := by
  cases read with
  | intro operands others settledOthers ends =>
    obtain ⟨own, inner⟩ := List.forall_mem_cons.mp settledOthers
    refine .intro (operand :: operands) ?_ ?_ ends
    · rw [whole, others, tokensOf, List.append_assoc]
    · refine List.forall_mem_cons.mpr ⟨own.cons fun signs dangles => ?_, ?_⟩
      · -- Where no operand starts, there are none.
        have absent := last signs dangles
        cases operands with
        | nil => rfl
        | cons next operands =>
          rw [others, tokensOf, List.append_assoc, startsOperand_tokens] at absent
          cases absent
      · exact List.forall_mem_append.mpr ⟨settled, inner⟩

/-- A conjunction is read, and after some dividers the other alternatives. -/
theorem ReadsAlternatives.divided (whole : tokens = tokensOf operands ++ rest)
    (settled : ∀ conjunction ∈ operands :: conjunctionsIn operands, Settled conjunction)
    (divided : rest.head?.any isDivider = true)
    (read : ReadsAlternatives (rest.dropWhile isDivider) (matchers, after)) :
    ReadsAlternatives tokens (conjunctionOf (matchersOf operands) :: matchers, after) := by
  obtain ⟨dividers, between⟩ := dropWhile_dividers rest
  cases dividers with
  | nil =>
    have shorter := length_dropWhile_lt divided
    rw [List.map_nil, List.nil_append] at between
    rw [← between] at shorter
    exact absurd shorter (Nat.lt_irrefl _)
  | cons divider others =>
    cases read with
    | intro alternatives more settledMore ends =>
      refine .intro (.more operands divider others alternatives) ?_ ?_ ends
      · rw [more] at between
        rw [whole, between, Alternatives.tokens, List.append_assoc, List.append_assoc]
      · obtain ⟨own, inner⟩ := List.forall_mem_cons.mp settled
        exact List.forall_mem_cons.mpr ⟨own, List.forall_mem_append.mpr ⟨inner, settledMore⟩⟩

/-- Readers with enough steps read what stands in the tokens. -/
theorem reads_tree (steps : Nat) :
    (∀ tokens : List Token, 3 * tokens.length + 1 ≤ steps →
      ReadsOperand tokens (readOperand steps tokens)) ∧
    (∀ tokens : List Token, 3 * tokens.length + 2 ≤ steps →
      ReadsOperands tokens (readOperands steps tokens)) ∧
    (∀ tokens : List Token, 3 * tokens.length + 3 ≤ steps →
      ReadsAlternatives tokens (readAlternatives steps tokens)) := by
  induction steps with
  | zero => refine ⟨?_, ?_, ?_⟩ <;> (intro tokens enough; omega)
  | succ steps ih =>
    obtain ⟨ihOperand, ihOperands, ihAlternatives⟩ := ih
    refine ⟨fun tokens enough => ?_, fun tokens enough => ?_, fun tokens enough => ?_⟩
    · match tokens, enough with
      | .minus :: tokens, enough =>
        rw [List.length_cons] at enough
        rw [readOperand]
        exact (ihOperand tokens (by omega)).minus
      | .openParen :: tokens, enough =>
        rw [List.length_cons] at enough
        rw [readOperand]
        exact (ihAlternatives tokens (by omega)).enclosed
      | [], _ => exact .absent rfl
      | .closeParen :: tokens, _ => exact .absent rfl
      | .comma :: tokens, _ => exact .absent rfl
      | .bar :: tokens, _ => exact .absent rfl
      | .left :: tokens, _ => exact .absent rfl
      | .right :: tokens, _ => exact .absent rfl
      | .name text :: tokens, _ =>
        rw [readOperand]
        · split
          next named => exact readsOperand_path named
          next other =>
            refine .absent ?_
            simpa [startsOperand] using other
        · rintro _ ⟨⟩
        · rintro _ ⟨⟩
    · have first := ihOperand tokens (by omega)
      rw [readOperands]
      generalize readOperand steps tokens = result at first ⊢
      cases first with
      | absent ends => exact .intro [] rfl (by simp [conjunctionsIn, Settled]) ends
      | @present operand rest whole settled last =>
        have shorter : rest.length < tokens.length := by
          rw [whole, List.length_append]
          exact Nat.lt_add_of_pos_left (List.length_pos_iff.mpr operand.tokens_ne_nil)
        exact .cons whole settled last (ihOperands rest (by omega))
    · have first := ihOperands tokens (by omega)
      rw [readAlternatives]
      generalize readOperands steps tokens = result at first ⊢
      cases first with
      | @intro operands rest whole settled ends =>
        simp only
        split
        next divided =>
          have shorter := length_dropWhile_lt divided
          have more := ihAlternatives (rest.dropWhile isDivider) (by
            rw [whole, List.length_append] at enough
            omega)
          generalize readAlternatives steps (rest.dropWhile isDivider) = others at more ⊢
          exact more.divided whole settled divided
        next => exact .intro (.last operands) whole settled ends

end Reading

section Lists

/-- What is made of a conjunction. -/
def matcherOf (conjunction : List Operand) : Matcher := conjunctionOf (matchersOf conjunction)

/-- The tokens of a conjunction with its priority before it. -/
def itemTokens (item : Priority × List Operand) : List Token :=
  markTokens item.1 ++ tokensOf item.2

/-- The tokens of conjunctions with their priorities, divided by commas. -/
def listTokens : List (Priority × List Operand) → List Token
  | [] => []
  | item :: items => itemTokens item ++ items.flatMap fun other => .comma :: itemTokens other

/-- All conjunctions in a list, at its top level or in parentheses. -/
def conjunctionsOf (items : List (Priority × List Operand)) : List (List Operand) :=
  items.flatMap fun item => item.2 :: conjunctionsIn item.2

theorem readPriority_eq (tokens : List Token) :
    tokens = markTokens (readPriority tokens).1 ++ (readPriority tokens).2 := by
  unfold readPriority
  split <;> rfl

/-- Selectors are read from the start of some tokens. -/
theorem readSelectors_tree (count : Nat) (tokens : List Token) (enough : tokens.length < count) :
    ∃ items rest, tokens = listTokens items ++ rest ∧ startsOperand rest = false ∧
      readSelectors count tokens = items.map (fun item => ⟨matcherOf item.2, item.1⟩) ∧
      ∀ conjunction ∈ conjunctionsOf items, Settled conjunction := by
  induction count generalizing tokens with
  | zero => omega
  | succ count ih =>
    cases tokens with
    | nil => exact ⟨[], [], rfl, rfl, rfl, by simp [conjunctionsOf]⟩
    | cons token tokens =>
      have marked := readPriority_eq (token :: tokens)
      rw [readSelectors]
      · generalize readPriority (token :: tokens) = start at marked ⊢
        obtain ⟨priority, rest⟩ := start
        have read := (reads_tree (stepsFor rest)).2.1 rest (Nat.le_succ _)
        simp only
        generalize readOperands (stepsFor rest) rest = result at read ⊢
        cases read with
        | @intro operands after whole settled ends =>
          have single : token :: tokens = listTokens [(priority, operands)] ++ after := by
            rw [marked, whole]
            simp [listTokens, itemTokens]
          have settled : ∀ conjunction ∈ conjunctionsOf [(priority, operands)],
              Settled conjunction := by
            simpa [conjunctionsOf] using settled
          split
          next left comma =>
            have comma : after = .comma :: left := comma
            subst comma
            obtain ⟨items, unread, others, endsOthers, selectors, settledOthers⟩ := ih left (by
              have length := congrArg List.length single
              simp only [List.length_append, List.length_cons] at length enough
              omega)
            rw [selectors]
            cases items with
            | nil =>
              -- A comma with nothing after it.
              refine ⟨[(priority, operands)], .comma :: unread, ?_, rfl, rfl, settled⟩
              rw [single, others]
              rfl
            | cons next items =>
              refine ⟨(priority, operands) :: next :: items, unread, ?_, endsOthers, rfl, ?_⟩
              · rw [single, others]
                simp [listTokens]
              · exact List.forall_mem_append.mpr ⟨by simpa [conjunctionsOf] using settled, settledOthers⟩
          next => exact ⟨[(priority, operands)], after, single, ends, rfl, settled⟩
      · exact List.cons_ne_nil token tokens

/-- Whatever the text of a list of selectors is, its tokens, up to one with which no operand starts, are
those of conjunctions with their priorities, and the selectors are what is made of these. In each of the
conjunctions, at the top level or in parentheses, nothing follows a dangling minus, and the conjunction
holds where the operands before the minus hold. With an odd number of further minus signs right before the
dangling one it holds nowhere. -/
theorem dangling_minus_adds_nothing (text : String) :
    ∃ (items : List (Priority × List Operand)) (rest : List Token),
      tokens text.toList = listTokens items ++ rest ∧ startsOperand rest = false ∧
      parse text = items.map (fun item => ⟨matcherOf item.2, item.1⟩) ∧
      ∀ conjunction ∈ conjunctionsOf items, ∀ front signs back,
        conjunction = front ++ danglingAfter signs :: back →
          back = [] ∧ ∀ scopes, (matcherOf conjunction).holds scopes = true ↔
            signs % 2 = 0 ∧ ∀ operand ∈ front, operand.matcher.holds scopes = true := by
  obtain ⟨items, rest, whole, ends, selectors, settled⟩ :=
    readSelectors_tree ((tokens text.toList).length + 1) (tokens text.toList) (Nat.lt_succ_self _)
  refine ⟨items, rest, whole, ends, selectors, ?_⟩
  rintro conjunction member front signs back rfl
  obtain rfl := settled _ member front signs back rfl
  exact ⟨rfl, holds_dangling front signs⟩

/-- A dangling minus after a name holds where the name does, and alone it holds everywhere. -/
theorem dangling_minus_holds :
    (parse "source.x -").map (fun selector => selector.matcher.holds ["source.x"]) = [true] ∧
      (parse "(-)").map (fun selector => selector.matcher.holds []) = [true] := by
  decide +kernel

end Lists

end ScopeLexer.Selector

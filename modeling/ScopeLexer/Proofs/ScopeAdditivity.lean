import ScopeLexer.Proofs.ScanReach
import ScopeLexer.Proofs.WorkInvariant

/-! Names add scopes. A rule that matches within a line and has a name, but no rules for its
groups, gives the text of every match the scopes around it and those of its name, and nothing
else. This takes that the pieces of the line have not run ahead of the cursor, for a piece that
has been produced is never replaced. -/
namespace ScopeLexer

open Grammar Pattern Regex

theorem ScopePath.names_pushOne (styling : Styling) (path : ScopePath) (name : String) :
    (path.pushOne styling name).names = path.names ++ [(Scope.ofText name).text] :=
  List.reverse_cons

/-- A list of scopes adds their names. -/
theorem ScopePath.names_push (styling : Styling) (path : ScopePath) (names : String) :
    (path.push styling (some names)).names =
      path.names ++ (Scope.splitPath names).map Scope.text := by
  rw [ScopePath.push, Scope.splitPath, List.map_map]
  generalize Scope.pathPieces names = pieces
  induction pieces generalizing path with
  | nil => simp
  | cons piece pieces ih => simp [ih, ScopePath.names_pushOne]

namespace Line

section Tokens

variable {text : String}

/-- Letting the last token end later leaves every token with at least its text. -/
theorem mem_stretchLast {tokens : List Token} (member : token ∈ tokens) (stop : Nat)
    (bound : token.stop ≤ stop) :
    ∃ stretched ∈ stretchLast stop tokens, stretched.start = token.start ∧
      token.stop ≤ stretched.stop ∧ stretched.scopes = token.scopes := by
  induction tokens with
  | nil => cases member
  | cons first tokens ih =>
    cases tokens with
    | nil =>
      rw [List.mem_singleton.mp member] at bound ⊢
      exact ⟨{ first with stop := stop }, List.mem_singleton_self _, rfl, bound, rfl⟩
    | cons second tokens =>
      rcases List.mem_cons.mp member with rfl | later
      · exact ⟨token, List.mem_cons_self, rfl, Nat.le_refl _, rfl⟩
      · obtain ⟨stretched, among, same⟩ := ih later
        exact ⟨stretched, List.mem_cons_of_mem _ among, same⟩

/-- Only a piece that starts at the line end is left out. -/
theorem mem_dropLineEnd {line : SourceLine} {pieces : List Piece} (member : piece ∈ pieces)
    (before : piece.start + 1 ≠ line.byteSize) : piece ∈ dropLineEnd line Piece.start pieces := by
  rcases List.eq_nil_or_concat pieces with rfl | ⟨front, last, rfl⟩
  · cases member
  rw [List.concat_eq_append] at member ⊢
  unfold dropLineEnd
  simp only [List.getLast?_concat, Option.any_some, decide_eq_true_eq, List.dropLast_concat]
  split
  next atEnd =>
    rcases List.mem_append.mp member with earlier | own
    · exact earlier
    · rw [List.mem_singleton.mp own] at before
      exact absurd atEnd before
  next => exact member

/-- The text of a piece is covered by a token with the scopes of the piece. -/
theorem token_of_piece (member : piece ∈ pieces.items.toList) (scopes : ScopePath)
    (starts : (Tokenizer.lineOf text).byteToChar piece.start ≤ char)
    (stops : char < (Tokenizer.lineOf text).byteToChar piece.stop) (bound : char < text.length) :
    ∃ token ∈ tokens (Tokenizer.lineOf text) pieces scopes,
      token.start ≤ char ∧ char < token.stop ∧ token.scopes = piece.scopes.names := by
  have visible : piece ∈ dropLineEnd (Tokenizer.lineOf text) Piece.start pieces.items.toList := by
    apply mem_dropLineEnd member
    intro atEnd
    rw [byteSize_lineOf, Nat.add_right_cancel_iff] at atEnd
    rw [atEnd, SourceLine.byteToChar_charToByte _ (by rw [charCount_lineOf]; omega)] at starts
    omega
  have shown : visiblePieces (Tokenizer.lineOf text) pieces scopes =
      dropLineEnd (Tokenizer.lineOf text) Piece.start pieces.items.toList := by
    unfold visiblePieces
    split
    next nothing =>
      rw [nothing] at visible
      cases visible
    next => rfl
  have clamped (byte : Nat) : clampedChar (Tokenizer.lineOf text) byte =
      min ((Tokenizer.lineOf text).byteToChar byte) text.length := by
    rw [clampedChar, contentLength_lineOf]
  let toToken (piece : Piece) : Token := ⟨clampedChar (Tokenizer.lineOf text) piece.start,
    clampedChar (Tokenizer.lineOf text) piece.stop, piece.scopes.names⟩
  have member : toToken piece ∈ (visiblePieces (Tokenizer.lineOf text) pieces scopes).map toToken :=
    List.mem_map_of_mem (shown ▸ visible)
  have upTo : (toToken piece).stop ≤ contentLength (Tokenizer.lineOf text) := Nat.min_le_right _ _
  obtain ⟨token, among, start, stop, names⟩ := mem_stretchLast member _ upTo
  simp only [toToken, clamped] at start stop
  exact ⟨token, among, by omega, by omega, names⟩

end Tokens

section Match

variable {σ : Type} {scanner : Scanner σ} {rescan : Rescan σ} {line : SourceLine} {cursor : Cursor}
  {work : Work σ} {found : Match}

/-- Producing up to two bytes in turn leaves a piece between them. -/
theorem Pieces.mem_produce_produce {pieces : Pieces} (reached : pieces.reached ≤ start)
    (proper : start < stop) (outer scopes : ScopePath) :
    ⟨start, stop, scopes⟩ ∈ ((pieces.produce outer start).produce scopes stop).items.toList := by
  have arrived : (pieces.produce outer start).reached = start := by
    unfold Pieces.produce
    split
    · omega
    · rfl
  generalize pieces.produce outer start = before at arrived ⊢
  rw [Pieces.produce, if_neg (by omega), Array.toList_push, arrived]
  exact List.mem_append_right _ (List.mem_singleton_self _)

/-- Without rules for groups nothing is produced for them. -/
theorem produceCaptures_of_size (bare : captures.size = 0) (isFirst : Bool) (stack : Stack)
    (spans : Spans) (work : Work σ) :
    produceCaptures scanner rescan line isFirst stack captures spans work = work := by
  unfold produceCaptures
  rw [bare, Nat.zero_min]
  split <;> rfl

/-- A match of a rule without rules for groups leaves a piece with the scopes of its name. -/
theorem piece_of_match (rescan : Rescan σ) {id : RuleId} {rule : SingleRule}
    (answer : (scanner.finder.next line cursor.pos cursor.flavour cursor.stack work.finder).1 =
      some found)
    (enters : found.target = .enter id) (single : scanner.grammar.rule id = .single rule)
    (bare : rule.captures.size = 0) (starts : cursor.pos ≤ found.start)
    (proper : found.start < found.stop) (reached : work.pieces.reached ≤ cursor.pos) :
    ∃ next after, step scanner rescan line cursor work = .next next after ∧
      ⟨found.start, found.stop, cursor.stack.contentScopes.push scanner.styling
        (resolvedName rule.name line found.spans)⟩ ∈ after.pieces.items.toList := by
  have course := step_course scanner rescan line cursor work
  rw [answer] at course
  have within : spanning? (scanner.grammar.rule id) = none := by rw [single]; rfl
  -- A match that takes some text never ends a scan.
  cases taken : step scanner rescan line cursor work with
  | done stack final =>
    rw [taken] at course
    cases course with
    | leftInPlace leaves => cases enters.symm.trans leaves
    | enteredInPlace also spans =>
      cases enters.symm.trans also
      cases within.symm.trans spans
    | matchedInPlace _ _ stays => omega
  | next next after =>
    refine ⟨next, after, rfl, ?_⟩
    obtain ⟨same, again, _, pieces⟩ := step_next taken
    cases answer.symm.trans again
    rw [pieces, handled, produceCaptures_of_size (by
      simp only [groupRules, enters, single, capturesOf]
      exact bare)]
    have name : (scanner.grammar.rule id).name = rule.name := by rw [single]; rfl
    have scopes : (handlingStack scanner line cursor found).contentScopes =
        cursor.stack.contentScopes.push scanner.styling (resolvedName rule.name line found.spans) := by
      simp only [handlingStack, enters, name]
      rfl
    rw [← scopes]
    exact Pieces.mem_produce_produce (Nat.le_trans reached starts) proper _ _

/-- Nothing that a scan does takes a piece away. -/
theorem keeps_piece (scanner : Scanner σ) (piece : Piece) :
    WorkInvariant scanner (fun _ => True) fun work : Work σ => piece ∈ work.pieces.items.toList where
  push _ _ _ _ := trivial
  produce work scopes stop _ held := by
    unfold Work.produce Pieces.produce
    simp only
    split
    · exact held
    · rw [Array.toList_push]
      exact List.mem_append_left _ held
  next _ _ _ _ _ held := held
  condition _ _ _ _ _ held := held
  warn _ _ held := held
  number _ _ held := held
  exhaust _ held := held

theorem piece_stays (held : piece ∈ work.pieces.items.toList) (scanner : Scanner σ) (depth : Nat)
    (expired : Nat → Bool) (line : SourceLine) (steps : Nat) (cursor : Cursor) :
    piece ∈ (scanFrom scanner (rescanGroup scanner depth) expired line steps cursor
      work).work.pieces.items.toList := by
  have keeps := keeps_piece scanner piece
  exact keeps.scanFrom (keeps.rescanGroup depth) cursor.stack.liesIn_true held line expired steps

end Match
end Line

namespace Tokenizer

/-- Where the steps of the scan of a line start. -/
def heads (tokenizer : Tokenizer) (engine : Engine) (theme : Theme) (state : Option Stack)
    (text : String) (clock : Clock) (store : Store) : List (Line.Head Line.Workspace) :=
  let started := tokenizer.started engine theme state text store
  Line.heads (tokenizer.scanner engine theme) (tokenizer.rescan engine theme) (lineOf text) clock
    (Line.stepBound (tokenizer.scanner engine theme) (lineOf text) started.1.stack) started.1 started.2

/-- The matches of the conditions that are checked before the scan of a line. -/
def conditionMatches (tokenizer : Tokenizer) (engine : Engine) (theme : Theme) (state : Option Stack)
    (text : String) (store : Store) : List (CaptureTable × Line.Match) :=
  let stack := tokenizer.startStack theme state
  Line.conditionMatches (tokenizer.scanner engine theme) (tokenizer.rescan engine theme)
    (lineOf text) (Line.blocksOf tokenizer.grammar stack.frames)
    { stack := stack
      pos := 0
      anchor := if stack.top.tookLineEnd then some 0 else none
      isFirst := state.isNone }
    { finder := { store := store } }

end Tokenizer

/-- Names add scopes. Whatever state a line is tokenized from and whenever the time is over: if the
matches before a step of the scan have contained their groups, those of conditions among them, then
nothing has been produced past the byte from which the step looks for a match. If it finds a match of
a rule that has a name and no rules for groups, every character of the match is in a token whose
scopes are the content scopes at the top, followed by those of the name. -/
theorem named_match_adds_scopes (tokenizer : Tokenizer) {engine : Engine}
    (inside : engine.StaysInside) (respects : engine.RespectsCuts) {store : Store}
    (used : InUse engine tokenizer.grammar store) (theme : Theme) (state : Option Stack)
    (text : String) (clock : Clock) {earlier later : List (Line.Head Line.Workspace)}
    {head : Line.Head Line.Workspace}
    (split : tokenizer.heads engine theme state text clock store = earlier ++ head :: later)
    (conditions : ∀ made ∈ tokenizer.conditionMatches engine theme state text store,
      Line.Contained (tokenizer.scanner engine theme) made.1 made.2)
    (contained : ∀ before ∈ earlier, ∀ found,
      before.found (tokenizer.scanner engine theme) (Tokenizer.lineOf text) = some found →
      Line.Contained (tokenizer.scanner engine theme)
        (Line.groupRules tokenizer.grammar before.cursor.stack found) found) :
    head.work.pieces.reached ≤ head.cursor.pos ∧
    ∀ found id rule name, clock head.steps = false →
      head.found (tokenizer.scanner engine theme) (Tokenizer.lineOf text) = some found →
      found.target = .enter id → tokenizer.grammar.rule id = .single rule →
      rule.captures.size = 0 → rule.name = some name →
      ∀ char, (Tokenizer.lineOf text).byteToChar found.start ≤ char →
        char < (Tokenizer.lineOf text).byteToChar found.stop → char < text.length →
        ∃ token ∈ (tokenizer.scanLine engine theme state text clock store).1.tokens,
          token.start ≤ char ∧ char < token.stop ∧
          token.scopes = head.cursor.stack.contentScopes.names ++
            (Scope.splitPath (resolveName name (Tokenizer.lineOf text) found.spans)).map
              Scope.text := by
  let line := Tokenizer.lineOf text
  let scanner := tokenizer.scanner engine theme
  have start : Line.Behind engine tokenizer.grammar line
      { stack := tokenizer.startStack theme state
        pos := 0
        anchor := if (tokenizer.startStack theme state).top.tookLineEnd then some 0 else none
        isFirst := state.isNone } { finder := { store := store } } := by
    refine ⟨⟨rfl, .start used.serves Nat.zero_lt_one, ?_, Line.Pieces.tiled_empty _⟩, Nat.le_refl _⟩
    intro part member byte cut
    rwa [List.mem_singleton.mp member] at cut
  have started := start.checkAll inside respects (tokenizer.styling theme) tokenizer.depth _ conditions
  obtain ⟨behind, goesOn⟩ := Line.of_heads split started fun before among behind next after taken =>
    behind.step inside respects (tokenizer.styling theme) tokenizer.depth (contained before among)
      taken
  refine ⟨behind.reached, ?_⟩
  intro found id rule name inTime answer enters single bare named char starts stops bound
  have lies := behind.tiling.faithful.findNext_lies inside respects (List.mem_singleton_self line)
    answer
  -- An empty match has no characters, and it may end the scan.
  have proper : found.start < found.stop := by
    refine Nat.lt_of_le_of_ne lies.order fun empty => ?_
    rw [empty] at starts
    omega
  obtain ⟨next, after, taken, produced⟩ := Line.piece_of_match (tokenizer.rescan engine theme)
    answer enters single bare lies.start proper behind.reached
  rw [Line.scanFrom, if_neg (by simp [inTime]), taken] at goesOn
  have outcome : tokenizer.outcome engine theme state text clock store =
    Line.scanFrom scanner (Line.rescanGroup scanner tokenizer.depth) clock line head.steps next
      after := goesOn
  -- The rest of the scan adds pieces only, so the piece of the match becomes a token.
  have held := Line.piece_stays produced scanner tokenizer.depth clock line head.steps next
  rw [← outcome] at held
  obtain ⟨token, among, first, last, scopes⟩ := Line.token_of_piece held
    (tokenizer.outcome engine theme state text clock store).stack.forgetLine.contentScopes starts
    stops bound
  refine ⟨token, among, first, last, scopes.trans ?_⟩
  rw [named]
  exact ScopePath.names_push _ _ _

namespace Paired

/-- A grammar with a rule for a pair of letters, all of which is named as a group, and a rule for a
letter. -/
def source : GrammarSource where
  scopeName := "source.p"
  patterns := [1, 2]
  rules := #[{ name := some "pair" },
    { matchPattern := some "ab", captures := some ⟨[("0", 0)]⟩ },
    { matchPattern := some "c", name := some "letter.$0 last" }]

/-- The grammar, compiled by the engine that takes patterns literally. -/
@[irreducible]
def compilation : Compilation :=
  (compile "source.p" ⟨[("source.p", source)]⟩ [] literal {}).1.toOption.get (by decide +kernel)

def tokenizer : Tokenizer := { serial := 0, rulesSerial := 1, grammar := compilation.grammar }

/-- The store of the grammar before the first line. -/
def store : Store := { patterns := compilation.patterns }

theorem compiles :
    (compile "source.p" ⟨[("source.p", source)]⟩ [] literal {}).1.toOption = some compilation := by
  rw [compilation, Option.some_get]

theorem inUse : InUse literal tokenizer.grammar store := .of_toOption compiles

/-- Where the steps on the line `abc` start. -/
def heads : List (Line.Head Line.Workspace) :=
  tokenizer.heads literal .plain none "abc" (fun _ => false) store

/-- Where the step after the pair starts. -/
def second : Line.Head Line.Workspace := heads.get ⟨1, by decide +kernel⟩

theorem heads_split : heads = heads.take 1 ++ second :: heads.drop 2 := by
  rw [second, List.get_eq_getElem, List.getElem_cons_drop, List.take_append_drop]

end Paired

/-- The pair contains its group, so the letter after it gets the scopes of its name. -/
theorem named_match_adds_scopes_letter :
    (literal.StaysInside ∧ literal.RespectsCuts ∧
      InUse literal Paired.tokenizer.grammar Paired.store ∧
      Paired.second.found (Paired.tokenizer.scanner literal .plain) (Tokenizer.lineOf "abc") =
        some ⟨.enter 3, 2, 3, #[some ⟨2, 3⟩]⟩) ∧
    Paired.second.work.pieces.reached ≤ Paired.second.cursor.pos ∧
    ∃ token ∈ (Paired.tokenizer.scanLine literal .plain none "abc" (fun _ => false)
        Paired.store).1.tokens,
      token.start ≤ 2 ∧ 2 < token.stop ∧ token.scopes = ["source.p", "letter.c", "last"] := by
  have answer : Paired.second.found (Paired.tokenizer.scanner literal .plain)
      (Tokenizer.lineOf "abc") = some ⟨.enter 3, 2, 3, #[some ⟨2, 3⟩]⟩ := by decide +kernel
  obtain ⟨behind, adds⟩ := named_match_adds_scopes Paired.tokenizer literal_staysInside
    literal_respectsCuts Paired.inUse .plain none "abc" (fun _ => false) Paired.heads_split
    (by decide +kernel) (by decide +kernel)
  obtain ⟨token, among, first, last, scopes⟩ := adds _ 3 ⟨some "letter.$0 last", 1, {}⟩ _ rfl answer
    rfl (by decide +kernel) rfl rfl 2 (by decide +kernel) (by decide +kernel) (by decide)
  refine ⟨⟨literal_staysInside, literal_respectsCuts, Paired.inUse, answer⟩, behind, token, among,
    first, last, scopes.trans ?_⟩
  decide +kernel

namespace Overtaken

/-- A grammar with a rule for the pattern, whose first group is named, and a rule for a letter. -/
def source (pattern : String) : GrammarSource where
  scopeName := "source.o"
  patterns := [1, 2]
  rules := #[{ name := some "ahead" },
    { matchPattern := some pattern, captures := some ⟨[("1", 0)]⟩ },
    { matchPattern := some "b", name := some "letter" }]

def tokenizer (compilation : Compilation) : Tokenizer := { serial := 0, rulesSerial := 1, grammar := compilation.grammar }

/-- The store of the compiled grammar before the first line. -/
def store (compilation : Compilation) : Store := { patterns := compilation.patterns }

/-- On the line `ab` a step finds the letter behind what has been produced, and no token gives the
letter its name. -/
def LosesLetter (pattern : String) : Prop :=
  ∃ compilation ∈ (compile "source.o" ⟨[("source.o", source pattern)]⟩ [] backtracking
      {}).1.toOption,
    compilation.grammar.rule 3 = .single ⟨some "letter", 1, {}⟩ ∧
    ∃ head ∈ (tokenizer compilation).heads backtracking .plain none "ab" (fun _ => false)
        (store compilation),
      head.cursor.pos = 1 ∧ head.work.pieces.reached = 2 ∧
      head.cursor.stack.contentScopes.names = ["source.o"] ∧
      head.found ((tokenizer compilation).scanner backtracking .plain) (Tokenizer.lineOf "ab") =
        some ⟨.enter 3, 1, 2, #[some ⟨1, 2⟩]⟩ ∧
      ∀ token ∈ ((tokenizer compilation).scanLine backtracking .plain none "ab" (fun _ => false)
          (store compilation)).1.tokens,
        token.start ≤ 1 → 1 < token.stop → token.scopes ≠ ["source.o", "letter"]

/-- A group can reach past its match, whether it starts where the match ends or inside it. -/
theorem lookahead_group_runs_ahead : LosesLetter "a(?=(b))" ∧ LosesLetter "(?=(ab))a" := by
  unfold LosesLetter
  constructor <;> decide +kernel

end Overtaken
end ScopeLexer

import Mathlib.Data.List.Chain
import ScopeLexer.Proofs.Coverage

/-! Plain and packed tokens agree. Packed tokens are merged first and lose the
line end afterwards; plain tokens lose it before anything could be merged. The
two orders come to the same, since a piece for the line end alone is the last
one: either it has metadata of its own and is dropped, or it has been merged into
the piece before it. So the packed tokens are the plain ones, each with the
metadata of the scopes it was produced from, less those that say nothing new.

The two forms belong to two calls, and the store of the grammar may have seen
other lines in between. What a line comes to does not depend on that. -/
namespace ScopeLexer

open Grammar Pattern Regex Style

namespace Line

/-- The tokens that do not have the metadata of the token before them, where
something is known of what comes before the first. -/
def changesAfter (before : Option Metadata) (tokens : List PackedToken) : List PackedToken :=
  ((tokens.zip (before :: tokens.map fun token => some token.metadata)).filter fun pair =>
    pair.2 ≠ some pair.1.metadata).map Prod.fst

/-- The tokens that do not have the metadata of the token before them. -/
def changes (tokens : List PackedToken) : List PackedToken := changesAfter none tokens

section Changes

variable {before : Option Metadata} {tokens : List PackedToken}

@[simp]
theorem changesAfter_nil : changesAfter before [] = [] := rfl

theorem changesAfter_cons (token : PackedToken) :
    changesAfter before (token :: tokens) =
      if before = some token.metadata then changesAfter (some token.metadata) tokens
      else token :: changesAfter (some token.metadata) tokens := by
  by_cases same : before = some token.metadata <;> simp [changesAfter, same]

theorem changes_cons (token : PackedToken) :
    changes (token :: tokens) = token :: changesAfter (some token.metadata) tokens := by
  simp [changes, changesAfter_cons]

theorem changesAfter_sublist (before : Option Metadata) (tokens : List PackedToken) :
    (changesAfter before tokens).Sublist tokens := by
  induction tokens generalizing before with
  | nil => exact List.Sublist.refl []
  | cons token tokens ih =>
    rw [changesAfter_cons]
    split
    · exact (ih _).cons token
    · exact (ih _).cons_cons token

/-- The token before the last of two lists is known once the first list is. -/
theorem changesAfter_concat (last : PackedToken) :
    changesAfter before (tokens ++ [last]) = changesAfter before tokens ++
      if (tokens.getLast?.map PackedToken.metadata).or before = some last.metadata then []
      else [last] := by
  induction tokens generalizing before with
  | nil => by_cases same : before = some last.metadata <;> simp [changesAfter_cons, same]
  | cons token tokens ih =>
    have known : ((token :: tokens).getLast?.map PackedToken.metadata).or before =
        (tokens.getLast?.map PackedToken.metadata).or (some token.metadata) := by
      cases shape : tokens.getLast? <;> simp [List.getLast?_cons, shape]
    rw [List.cons_append, changesAfter_cons, changesAfter_cons, ih, known]
    split <;> rfl

theorem changesAfter_map (change : PackedToken → PackedToken)
    (keeps : ∀ token, (change token).metadata = token.metadata) :
    changesAfter before (tokens.map change) = (changesAfter before tokens).map change := by
  induction tokens generalizing before with
  | nil => rfl
  | cons token tokens ih =>
    rw [List.map_cons, changesAfter_cons, changesAfter_cons, keeps, ih]
    split <;> rfl

/-- No two neighbours among the tokens that are left have the same metadata. -/
theorem changesAfter_chain (before : Option Metadata) (tokens : List PackedToken) :
    (changesAfter before tokens).IsChain (fun token next => token.metadata ≠ next.metadata) ∧
      ∀ token ∈ (changesAfter before tokens).head?, before ≠ some token.metadata := by
  induction tokens generalizing before with
  | nil => simp
  | cons token tokens ih =>
    obtain ⟨chain, differs⟩ := ih (some token.metadata)
    rw [changesAfter_cons]
    split
    next same =>
      rw [same]
      exact ⟨chain, differs⟩
    next other =>
      refine ⟨List.isChain_cons.mpr ⟨?_, chain⟩, by simpa using other⟩
      intro next first same
      exact differs next first (congrArg some same)

/-- A token after those that have been merged, the last one first. -/
def mergeOnto (merged : List PackedToken) (token : PackedToken) : List PackedToken :=
  if merged.head?.any (·.metadata = token.metadata) then merged else token :: merged

/-- Leaves out each token that has the metadata of the one before it. -/
def mergeTokens (tokens : List PackedToken) : List PackedToken := (tokens.foldl mergeOnto []).reverse

theorem foldl_mergeOnto (merged tokens : List PackedToken) : tokens.foldl mergeOnto merged =
    (changesAfter (merged.head?.map PackedToken.metadata) tokens).reverse ++ merged := by
  induction tokens generalizing merged with
  | nil => rfl
  | cons token tokens ih =>
    rw [List.foldl_cons, ih, changesAfter_cons]
    cases merged with
    | nil => simp [mergeOnto]
    | cons last merged =>
      by_cases same : last.metadata = token.metadata <;> simp [mergeOnto, same]

/-- Merging tokens while they come leaves those that change something. -/
theorem mergeTokens_eq (tokens : List PackedToken) : mergeTokens tokens = changes tokens := by
  rw [mergeTokens, foldl_mergeOnto, List.append_nil, List.reverse_reverse, changes]
  rfl

end Changes

section LineEnd

variable {line : SourceLine}

theorem dropLineEnd_map {α β : Type} (change : α → β) (start : β → Nat) (items : List α) :
    dropLineEnd line start (items.map change) =
      (dropLineEnd line (fun item => start (change item)) items).map change := by
  simp only [dropLineEnd, List.getLast?_map, Option.any_map]
  split
  · exact List.map_dropLast.symm
  · rfl

theorem dropLineEnd_of_inside {α : Type} {start : α → Nat} {items : List α}
    (inside : ∀ item ∈ items, start item + 1 ≠ line.byteSize) :
    dropLineEnd line start items = items := by
  unfold dropLineEnd
  cases isLast : items.getLast? with
  | none => simp
  | some last => simp [inside last (List.mem_of_getLast? isLast)]

/-- It makes no difference whether the line end is dropped before or after tokens
are merged. -/
theorem dropLineEnd_changes {tokens : List PackedToken}
    (rises : tokens.Pairwise fun token next => token.start < next.start)
    (bounded : ∀ token ∈ tokens, token.start < line.byteSize) :
    dropLineEnd line PackedToken.start (changes tokens) =
      changes (dropLineEnd line PackedToken.start tokens) := by
  rcases List.eq_nil_or_concat tokens with rfl | ⟨front, last, rfl⟩
  · rfl
  rw [List.concat_eq_append] at rises bounded ⊢
  obtain ⟨_, _, order⟩ := List.pairwise_append.mp rises
  have early (token : PackedToken) (member : token ∈ front) : token.start + 1 ≠ line.byteSize := by
    have before := order token member last (List.mem_singleton_self last)
    have bound := bounded last (by simp)
    omega
  have front_kept : dropLineEnd line PackedToken.start (changes front) = changes front :=
    dropLineEnd_of_inside fun token member =>
      early token ((changesAfter_sublist none front).subset member)
  by_cases atEnd : last.start + 1 = line.byteSize
  · -- The token of the line end is dropped from `front ++ [last]`, merged into `front` or not.
    have dropped : dropLineEnd line PackedToken.start (front ++ [last]) = front := by
      simp [dropLineEnd, atEnd]
    rw [dropped, changes, changesAfter_concat]
    split
    · rw [List.append_nil]
      exact front_kept
    · simp [dropLineEnd, atEnd, changes]
  · have kept : ∀ token ∈ front ++ [last], token.start + 1 ≠ line.byteSize := by
      intro token member
      rcases List.mem_append.mp member with earlier | own
      · exact early token earlier
      · rw [List.mem_singleton.mp own]
        exact atEnd
    rw [dropLineEnd_of_inside kept, dropLineEnd_of_inside]
    intro token member
    exact kept token ((changesAfter_sublist none _).subset member)

end LineEnd

section Produced

variable {packing : Packing} {pieces : Pieces}

theorem PackedPieces.reached_produce (packed : PackedPieces) (scopes : ScopePath) (stop : Nat) :
    (packed.produce packing scopes stop).reached = max packed.reached stop := by
  unfold PackedPieces.produce
  split
  next behind => exact (Nat.max_eq_left behind).symm
  next ahead =>
    dsimp only
    split <;> exact (Nat.max_eq_right (Nat.le_of_not_le ahead)).symm

/-- A token that adds something is merged onto those before it. -/
theorem PackedPieces.produce_of_lt {packed : PackedPieces} {stop : Nat} (ahead : packed.reached < stop)
    (scopes : ScopePath) : packed.produce packing scopes stop =
      ⟨mergeOnto packed.tokens ⟨packed.reached, packing.metadata scopes⟩, stop⟩ := by
  unfold PackedPieces.produce mergeOnto
  rw [if_neg (Nat.not_le.mpr ahead)]
  dsimp only
  split <;> rfl

/-- Packing what has been produced so far, and then what is produced next, is packing all of it. -/
theorem PackedPieces.ofPieces_produce (level : (ofPieces packing pieces).reached = pieces.reached)
    (scopes : ScopePath) (stop : Nat) :
    ofPieces packing (pieces.produce scopes stop) = (ofPieces packing pieces).produce packing scopes stop ∧
      (ofPieces packing (pieces.produce scopes stop)).reached = (pieces.produce scopes stop).reached := by
  have same : ofPieces packing (pieces.produce scopes stop) =
      (ofPieces packing pieces).produce packing scopes stop := by
    unfold Pieces.produce
    split
    next behind => rw [PackedPieces.produce, level, if_pos behind]
    next =>
      rw [ofPieces, Array.toList_push, List.foldl_append]
      rfl
  refine ⟨same, ?_⟩
  rw [same, reached_produce, level, Pieces.produce]
  split
  next behind => exact Nat.max_eq_left behind
  next ahead => exact Nat.max_eq_right (Nat.le_of_not_le ahead)

/-- Tokens that are merged while pieces are produced, one call after the other, are those of the pieces. -/
theorem PackedPieces.ofPieces_foldl (packing : Packing) (calls : List (ScopePath × Nat)) :
    ofPieces packing (calls.foldl (fun pieces call => pieces.produce call.1 call.2) {}) =
      calls.foldl (fun packed call => packed.produce packing call.1 call.2) {} := by
  suffices run : ∀ pieces : Pieces, (ofPieces packing pieces).reached = pieces.reached →
      ofPieces packing (calls.foldl (fun pieces call => pieces.produce call.1 call.2) pieces) =
        calls.foldl (fun packed call => packed.produce packing call.1 call.2) (ofPieces packing pieces) from
    run {} rfl
  induction calls with
  | nil => exact fun _ _ => rfl
  | cons call calls ih =>
    intro pieces level
    obtain ⟨same, levelAfter⟩ := ofPieces_produce level call.1 call.2
    rw [List.foldl_cons, List.foldl_cons, ih _ levelAfter, same]

/-- Of pieces side by side the tokens are merged one after the other. -/
theorem PackedPieces.foldl_tile {start stop : Nat} {items : List Piece} (tile : Piece.Tile start stop items)
    (tokens : List PackedToken) :
    items.foldl (fun (packed : PackedPieces) piece => packed.produce packing piece.scopes piece.stop)
        ⟨tokens, start⟩ =
      ⟨(items.map fun piece => (⟨piece.start, packing.metadata piece.scopes⟩ : PackedToken)).foldl mergeOnto
        tokens, stop⟩ := by
  induction items generalizing start tokens with
  | nil => rw [show start = stop from tile, List.foldl_nil, List.map_nil, List.foldl_nil]
  | cons piece items ih =>
    obtain ⟨rfl, proper, rest⟩ := tile
    rw [List.foldl_cons, produce_of_lt proper, ih rest, List.map_cons, List.foldl_cons]

/-- What is merged while it is produced is what comes of merging all pieces. -/
theorem PackedPieces.ofPieces_eq (packing : Packing) {line : SourceLine} (tiled : pieces.Tiled line) :
    (ofPieces packing pieces).tokens.reverse =
      mergeTokens (pieces.items.toList.map fun piece => ⟨piece.start, packing.metadata piece.scopes⟩) := by
  rw [ofPieces, foldl_tile tiled.tile, mergeTokens]

end Produced

/-- Pieces that tile a stretch start one after the other, none before the stretch. -/
theorem Piece.Tile.rises {start stop : Nat} {pieces : List Piece}
    (tile : Piece.Tile start stop pieces) :
    pieces.Pairwise (fun piece next => piece.start < next.start) ∧
      ∀ piece ∈ pieces, start ≤ piece.start := by
  induction pieces generalizing start with
  | nil => simp
  | cons piece pieces ih =>
    obtain ⟨rfl, proper, rest⟩ := tile
    obtain ⟨rises, after⟩ := ih rest
    refine ⟨List.pairwise_cons.mpr ⟨fun next member => ?_, rises⟩, fun next member => ?_⟩
    · have later := after next member
      omega
    · rcases List.mem_cons.mp member with rfl | member
      · exact Nat.le_refl _
      · have later := after next member
        omega

/-- Tokens that tile a stretch and are not empty start one after the other, none before the
stretch. -/
theorem Token.Tile.rises {start stop : Nat} {tokens : List Token}
    (tile : Token.Tile start stop tokens) (proper : ∀ token ∈ tokens, token.start < token.stop) :
    tokens.Pairwise (fun token next => token.start < next.start) ∧
      ∀ token ∈ tokens, start ≤ token.start := by
  induction tokens generalizing start with
  | nil => simp
  | cons token tokens ih =>
    obtain ⟨rfl, rest⟩ := tile
    have own := proper token List.mem_cons_self
    obtain ⟨rises, after⟩ := ih rest fun next member => proper next (List.mem_cons_of_mem _ member)
    refine ⟨List.pairwise_cons.mpr ⟨fun next member => ?_, rises⟩, fun next member => ?_⟩
    · have later := after next member
      omega
    · rcases List.mem_cons.mp member with rfl | member
      · exact Nat.le_refl _
      · have later := after next member
        omega

/-- The packed tokens of pieces side by side are those of the pieces that become
plain tokens, less those that say nothing new. -/
theorem packedTokens_eq (packing : Packing) {line : SourceLine} {pieces : Pieces}
    (tiled : pieces.Tiled line) (scopes : ScopePath) :
    packedTokens packing line pieces scopes =
      changes ((visiblePieces line pieces scopes).map fun piece =>
        ⟨clampedChar line piece.start, packing.metadata piece.scopes⟩) := by
  let pack (piece : Piece) : PackedToken := ⟨piece.start, packing.metadata piece.scopes⟩
  let clamp (token : PackedToken) : PackedToken :=
    { token with start := clampedChar line token.start }
  have rises : (pieces.items.toList.map pack).Pairwise fun token next =>
      token.start < next.start := List.pairwise_map.mpr tiled.tile.rises.1
  have bounded : ∀ token ∈ pieces.items.toList.map pack, token.start < line.byteSize := by
    intro token member
    obtain ⟨piece, among, rfl⟩ := List.mem_map.mp member
    have proper := (tiled.tile.bounds among).1
    have inside := (tiled.cuts piece among).2.le_byteSize
    exact Nat.lt_of_lt_of_le proper inside
  have clamped (tokens : List PackedToken) : changes (tokens.map clamp) = (changes tokens).map clamp :=
    changesAfter_map clamp fun _ => rfl
  have visible : dropLineEnd line PackedToken.start (PackedPieces.ofPieces packing pieces).tokens.reverse =
      changes ((dropLineEnd line Piece.start pieces.items.toList).map pack) := by
    rw [PackedPieces.ofPieces_eq packing tiled, mergeTokens_eq, dropLineEnd_changes rises bounded,
      dropLineEnd_map]
  have together (pieces : List Piece) :
      (pieces.map fun piece => (⟨clampedChar line piece.start, packing.metadata piece.scopes⟩ :
        PackedToken)) = (pieces.map pack).map clamp := by simp [pack, clamp]
  unfold packedTokens visiblePieces
  simp only
  rw [together, clamped, visible]
  cases dropLineEnd line Piece.start pieces.items.toList with
  | nil => simp [pack, clamp, changes, changesAfter]
  | cons piece rest => rw [List.map_cons, changes_cons]

theorem start_stretchLast (stop : Nat) (tokens : List Token) :
    (stretchLast stop tokens).map Token.start = tokens.map Token.start ∧
      (stretchLast stop tokens).map Token.scopes = tokens.map Token.scopes := by
  fun_induction stretchLast stop tokens with
  | case1 => simp
  | case2 last => simp
  | case3 token tokens _ ih => simp [ih]

end Line

namespace ScannedLine

/-- The scopes that the plain tokens of a line were produced from. -/
def paths (scanned : ScannedLine) : List ScopePath :=
  (Line.visiblePieces scanned.line scanned.pieces scanned.state.contentScopes).map Line.Piece.scopes

/-- The plain tokens of a line, each with the metadata of its scopes in place of
their names. -/
def packedEach (scanned : ScannedLine) : List Line.PackedToken :=
  List.zipWith (fun token path => ⟨token.start, scanned.packing.metadata path⟩) scanned.tokens
    scanned.paths

theorem scopes_tokens (scanned : ScannedLine) :
    scanned.tokens.map Line.Token.scopes = scanned.paths.map ScopePath.names := by
  simp only [tokens, Line.tokens, (Line.start_stretchLast _ _).2, paths, List.map_map]
  rfl

theorem packedEach_eq (scanned : ScannedLine) :
    scanned.packedEach =
      (Line.visiblePieces scanned.line scanned.pieces scanned.state.contentScopes).map fun piece =>
        ⟨Line.clampedChar scanned.line piece.start, scanned.packing.metadata piece.scopes⟩ := by
  have starts (tokens : List Line.Token) (paths : List ScopePath) :
      List.zipWith (fun (token : Line.Token) path =>
        (⟨token.start, scanned.packing.metadata path⟩ : Line.PackedToken)) tokens paths =
      List.zipWith (fun start path => ⟨start, scanned.packing.metadata path⟩)
        (tokens.map Line.Token.start) paths := by
    rw [List.zipWith_map_left]
  rw [packedEach, starts, tokens, Line.tokens, (Line.start_stretchLast _ _).1, paths, List.map_map,
    List.zipWith_map, List.zipWith_self]
  rfl

theorem start_packedEach (scanned : ScannedLine) :
    scanned.packedEach.map Line.PackedToken.start = scanned.tokens.map Line.Token.start := by
  simp only [packedEach_eq, tokens, Line.tokens, (Line.start_stretchLast _ _).1, List.map_map]
  rfl

end ScannedLine

namespace Line

/-- Scans from the same stack, with stores that serve the grammar. -/
def sameScans (engine : Engine) (grammar : CompiledGrammar) (styling : Styling) :
    Simulation Workspace Workspace :=
  { twinScans engine grammar styling with
    strict := true
    next := fun pos flavour twins member alike sound =>
      (twinScans engine grammar styling).next pos flavour twins member (alike.eq ▸ .refl _) sound
    condition := fun {known a b line frame other} pos flavour twins member same sound => by
      have frames : frame = other := same
      subst frames
      exact (twinScans engine grammar styling).condition pos flavour twins member rfl sound }

end Line

namespace Tokenizer

variable {tokenizer : Tokenizer} {engine : Engine}

/-- What a line comes to does not depend on what the store of the grammar has seen. -/
theorem scanLine_eq_of_inUse {first second : Store}
    (usedFirst : InUse engine tokenizer.grammar first)
    (usedSecond : InUse engine tokenizer.grammar second) (theme : Theme) (state : Option Stack)
    (text : String) (clock : Clock) :
    (tokenizer.scanLine engine theme state text clock first).1 =
      (tokenizer.scanLine engine theme state text clock second).1 := by
  have exhausts : (Line.sameScans engine tokenizer.grammar (tokenizer.styling theme)).Exhausts :=
    Line.twinScans_exhausts engine tokenizer.grammar (tokenizer.styling theme)
  have related : Line.Work.Twins engine tokenizer.grammar [lineOf text]
      { finder := { store := first } } { finder := { store := second } } :=
    .start usedFirst.serves usedSecond.serves Nat.zero_lt_one
  obtain ⟨ends, early, works⟩ := Line.Simulation.scan_related exhausts related
    (List.mem_singleton_self _) (.refl (tokenizer.startStack theme state)) rfl tokenizer.depth clock
    state.isNone trivial
  have sameStack : (tokenizer.outcome engine theme state text clock first).stack =
      (tokenizer.outcome engine theme state text clock second).stack := ends.eq
  have samePieces : (tokenizer.outcome engine theme state text clock first).work.pieces =
      (tokenizer.outcome engine theme state text clock second).work.pieces := works.pieces
  have sameEarly : (tokenizer.outcome engine theme state text clock first).stoppedEarly =
      (tokenizer.outcome engine theme state text clock second).stoppedEarly := early
  simp only [scanLine_eq, sameStack, samePieces, sameEarly]

/-- The pieces of a line lie side by side. -/
theorem scanLine_tiled (respects : engine.RespectsCuts) {store : Store}
    (used : InUse engine tokenizer.grammar store) (theme : Theme) (state : Option Stack)
    (text : String) (clock : Clock) :
    (tokenizer.scanLine engine theme state text clock store).1.pieces.Tiled (lineOf text) := by
  have related : Line.Work.Tiling engine tokenizer.grammar (lineOf text) [lineOf text]
      { finder := { store := store } } { finder := { store := store } } := by
    refine ⟨rfl, .start used.serves Nat.zero_lt_one, ?_, Line.Pieces.tiled_empty _⟩
    intro line member byte cut
    rwa [List.mem_singleton.mp member] at cut
  exact (Line.Simulation.scan_related
    (Line.tilingScans_exhausts respects tokenizer.grammar (tokenizer.styling theme) (lineOf text))
    related (List.mem_singleton_self _) (.refl (tokenizer.startStack theme state)) rfl tokenizer.depth
    clock state.isNone trivial).2.2.tiled

end Tokenizer

/-- The starts of the plain tokens of a line go up from 0. -/
theorem ScannedLine.rises_of_tiled {scanned : ScannedLine} {text : String}
    (line : scanned.line = Tokenizer.lineOf text) (tiled : scanned.pieces.Tiled scanned.line) :
    (∃ first rest, scanned.tokens = first :: rest ∧ first.start = 0) ∧
      scanned.tokens.Pairwise fun token next => token.start < next.start := by
  rw [line] at tiled
  obtain ⟨some, tile, proper, empty⟩ := Line.tokens_tile tiled scanned.state.contentScopes
  unfold ScannedLine.tokens
  rw [line]
  generalize Line.tokens (Tokenizer.lineOf text) scanned.pieces scanned.state.contentScopes = tokens
    at some tile proper empty ⊢
  constructor
  · cases tokens with
    | nil => exact absurd rfl some
    | cons first rest => exact ⟨first, rest, rfl, tile.1⟩
  · rcases Nat.eq_zero_or_pos text.length with short | long
    · obtain ⟨names, rfl⟩ := empty short
      exact List.pairwise_singleton _ _
    · exact (tile.rises (proper long)).1

/-- Tokenizing a line for packed tokens leaves the state that tokenizing it for
plain ones leaves, and stops early if that does. The packed tokens are the plain
ones, each with the metadata of the scopes it was produced from, less those whose
metadata is that of the token before them. So they start at 0, their starts go
up, and no two neighbours have the same metadata. -/
theorem packed_tokens_agree (tokenizer : Tokenizer) {engine : Engine}
    (respects : engine.RespectsCuts) {first second : Store}
    (usedFirst : InUse engine tokenizer.grammar first)
    (usedSecond : InUse engine tokenizer.grammar second) (theme : Theme) (state : Option Stack)
    (text : String) (clock : Clock) :
    let plain := (tokenizer.scanLine engine theme state text clock first).1
    let packed := (tokenizer.scanLine engine theme state text clock second).1
    packed.state = plain.state ∧ packed.stoppedEarly = plain.stoppedEarly ∧
      plain.tokens.map Line.Token.scopes = plain.paths.map ScopePath.names ∧
      packed.packedTokens = Line.changes plain.packedEach ∧
      packed.packedTokens.head?.map Line.PackedToken.start = some 0 ∧
      (packed.packedTokens.Pairwise fun token next => token.start < next.start) ∧
      packed.packedTokens.IsChain fun token next => token.metadata ≠ next.metadata := by
  intro plain packed
  have same : packed = plain := tokenizer.scanLine_eq_of_inUse usedSecond usedFirst theme state text
    clock
  have tiled : plain.pieces.Tiled plain.line :=
    tokenizer.scanLine_tiled respects usedFirst theme state text clock
  have merged : plain.packedTokens = Line.changes plain.packedEach := by
    rw [ScannedLine.packedTokens, Line.packedTokens_eq _ tiled, ScannedLine.packedEach_eq]
  obtain ⟨⟨token, tokens, shape, zero⟩, rises⟩ := ScannedLine.rises_of_tiled rfl tiled
  have starts := plain.start_packedEach
  rw [same]
  refine ⟨rfl, rfl, plain.scopes_tokens, merged, ?_, ?_, ?_⟩
  · rw [shape] at starts
    cases each : plain.packedEach with
    | nil => simp [each] at starts
    | cons first rest =>
      rw [each, List.map_cons, List.map_cons, List.cons.injEq] at starts
      rw [merged, each, Line.changes_cons, List.head?_cons, Option.map_some, starts.1, zero]
  · have eachRises : plain.packedEach.Pairwise fun token next => token.start < next.start := by
      rw [← List.pairwise_map (f := Line.PackedToken.start) (R := (· < ·)), starts]
      exact List.pairwise_map.mpr rises
    rw [merged]
    exact eachRises.sublist (Line.changesAfter_sublist _ _)
  · rw [merged]
    exact (Line.changesAfter_chain _ _).1

/-- A configuration that forces the kind of some tokens, so that only some
neighbours have the same metadata. -/
theorem packed_tokens_agree_overrides :
    let config : GrammarConfig :=
      { tokenTypes := ⟨[("first", .comment)]⟩, balancedBrackets := ["*"] }
    let tokenizer : Tokenizer := { Sample.tokenizer with config := some config }
    let state := (tokenizer.scanLine backtracking .plain none "ax" (fun _ => false)
      Sample.store).1.state
    let scanned := (tokenizer.scanLine backtracking .plain (some state) "zéyü" (fun _ => false)
      Sample.store).1
    backtracking.RespectsCuts ∧ InUse backtracking tokenizer.grammar Sample.store ∧
      scanned.tokens.map Line.Token.start = [0, 1, 2, 3] ∧
      scanned.packedTokens.map Line.PackedToken.start = [0, 1] ∧
      scanned.packedTokens = Line.changes scanned.packedEach := by
  intro config tokenizer state scanned
  have agree := packed_tokens_agree tokenizer Regex.respectsCuts_backtracking Sample.inUse
    Sample.inUse .plain (some state) "zéyü" (fun _ => false)
  exact ⟨Regex.respectsCuts_backtracking, Sample.inUse, by decide +kernel, by decide +kernel,
    agree.2.2.2.1⟩

end ScopeLexer

import ScopeLexer.Proofs.GrammarUse

/-! The tokens of a line cover it. Pieces are added where the last one ends, and
only ever up to a byte at which the line can be cut; a part of the line that is
scanned again can be cut only where the line can, so this holds at any depth.
However the scan of a line goes and ends, its pieces therefore lie side by side
from the first byte on. Counted in characters, with the line end left out, they
are tokens that lie side by side and take in the whole line. -/
namespace ScopeLexer

open Grammar Pattern Regex

namespace Line

/-- Pieces that lie side by side, none of them empty, from one byte to another. -/
def Piece.Tile : Nat → Nat → List Piece → Prop
  | start, stop, [] => start = stop
  | start, stop, piece :: pieces =>
    piece.start = start ∧ piece.start < piece.stop ∧ Piece.Tile piece.stop stop pieces

theorem Piece.tile_append (start stop : Nat) (front back : List Piece) :
    Piece.Tile start stop (front ++ back) ↔
      ∃ middle, Piece.Tile start middle front ∧ Piece.Tile middle stop back := by
  induction front generalizing start with
  | nil => simp [Piece.Tile]
  | cons piece front ih =>
    simp only [List.cons_append, Piece.Tile, ih]
    constructor
    · rintro ⟨starts, some, middle, before, after⟩
      exact ⟨middle, ⟨starts, some, before⟩, after⟩
    · rintro ⟨middle, ⟨starts, some, before⟩, after⟩
      exact ⟨starts, some, middle, before, after⟩

theorem Piece.Tile.le {start stop : Nat} {pieces : List Piece} (tile : Piece.Tile start stop pieces) :
    start ≤ stop := by
  induction pieces generalizing start with
  | nil => exact Nat.le_of_eq tile
  | cons piece pieces ih =>
    obtain ⟨starts, some, rest⟩ := tile
    have later := ih rest
    omega

theorem Piece.Tile.bounds {start stop : Nat} {pieces : List Piece}
    (tile : Piece.Tile start stop pieces) (member : piece ∈ pieces) :
    piece.start < piece.stop ∧ piece.stop ≤ stop := by
  induction pieces generalizing start with
  | nil => cases member
  | cons first pieces ih =>
    obtain ⟨starts, some, rest⟩ := tile
    rcases List.mem_cons.mp member with rfl | later
    · exact ⟨some, rest.le⟩
    · exact ih rest later

/-- The pieces of a line lie side by side up to the byte reached, and the line
can be cut wherever one of them starts or ends. -/
structure Pieces.Tiled (line : SourceLine) (pieces : Pieces) : Prop where
  tile : Piece.Tile 0 pieces.reached pieces.items.toList
  reached : line.Cut pieces.reached
  cuts : ∀ piece ∈ pieces.items.toList, line.Cut piece.start ∧ line.Cut piece.stop

theorem Pieces.tiled_empty (line : SourceLine) : Pieces.Tiled line {} where
  tile := rfl
  reached := SourceLine.cut_zero
  cuts piece absurd := by cases absurd

/-- A piece up to a place between characters continues the tiling. -/
theorem Pieces.Tiled.produce (tiled : Pieces.Tiled line pieces) (scopes : ScopePath)
    (cut : line.Cut stop) : Pieces.Tiled line (pieces.produce scopes stop) := by
  unfold Pieces.produce
  split
  · exact tiled
  next ahead =>
    refine ⟨?_, cut, ?_⟩
    · rw [Array.toList_push, Piece.tile_append]
      exact ⟨pieces.reached, tiled.tile, rfl, Nat.lt_of_not_le ahead, rfl⟩
    · intro piece member
      rw [Array.toList_push] at member
      rcases List.mem_append.mp member with old | new
      · exact tiled.cuts piece old
      · rw [List.mem_singleton.mp new]
        exact ⟨tiled.reached, cut⟩

section Scan

variable {engine : Engine} {grammar : CompiledGrammar}

/-- A pattern made by an engine that respects cuts finds matches on cuts. -/
theorem Entry.Finds.on {entry : Entry} (respects : engine.RespectsCuts) (fresh : entry.Fresh engine)
    (finds : entry.Finds line pos made) : made.On line.Cut := by
  obtain ⟨start, spans, _, _, searched, matched⟩ := finds
  obtain ⟨searcher, compiled, searched⟩ := Option.bind_eq_some_iff.mp searched
  obtain ⟨whole, same, _⟩ := Entry.start_of_toMatch matched
  have cuts := respects searcher (fresh.made searcher compiled) line start spans searched
  obtain ⟨first, last⟩ := cuts 0 _ whole
  exact ⟨first, last, same.symm ▸ cuts⟩

/-- Scans of a line, and of parts of it, whose pieces lie side by side. -/
structure Work.Tiling (engine : Engine) (grammar : CompiledGrammar) (whole : SourceLine)
    (known : List SourceLine) (left right : Work Workspace) : Prop where
  same : left = right
  faithful : left.finder.Faithful engine grammar known left.lineCount
  parts : ∀ line ∈ known, ∀ byte, line.Cut byte → whole.Cut byte
  tiled : left.pieces.Tiled whole

/-- With an engine that respects cuts, the pieces of a scan lie side by side. -/
def tilingScans (respects : engine.RespectsCuts) (grammar : CompiledGrammar) (styling : Styling)
    (whole : SourceLine) : Simulation Workspace Workspace where
  strict := true
  grammar := grammar
  styling := styling
  left := rememberingFinder engine grammar
  right := rememberingFinder engine grammar
  Cut := SourceLine.Cut
  Related := Work.Tiling engine grammar whole
  whole _ := SourceLine.cut_byteSize
  sameCount tiling := congrArg Work.lineCount tiling.same
  next {known a b line stack other} pos flavour tiling member alike _ := by
    obtain ⟨rfl, faithful, parts, tiled⟩ := tiling
    simp only [rememberingFinder, ← findNext_alike alike]
    refine ⟨trivial, ⟨rfl, faithful.findNext member pos flavour stack, parts, tiled⟩, ?_⟩
    intro found answer
    obtain ⟨key, _, entry, among, finds⟩ := faithful.findNext_sighted member answer
    exact finds.on respects (rebuiltRuleSet_fresh engine grammar key entry among)
  condition {known a b line frame other} pos flavour tiling member same _ := by
    obtain ⟨rfl, faithful, parts, tiled⟩ := tiling
    simp only [rememberingFinder, ← findCondition_alike same]
    refine ⟨trivial, ⟨rfl, faithful.findCondition member pos flavour frame, parts, tiled⟩, ?_⟩
    intro found answer
    obtain ⟨entry, among, finds⟩ := faithful.findCondition_finds member answer
    exact finds.on respects (rebuiltConditionSet_fresh engine grammar _ entry among)
  warn warning tiling := by
    obtain ⟨rfl, faithful, parts, tiled⟩ := tiling
    exact ⟨rfl, faithful.warn warning, parts, tiled⟩
  produce scopes tiling member cut := by
    obtain ⟨rfl, faithful, parts, tiled⟩ := tiling
    exact ⟨rfl, faithful, parts, tiled.produce scopes (parts _ member _ cut)⟩
  divide tiling member cut := by
    obtain ⟨rfl, faithful, parts, tiled⟩ := tiling
    refine ⟨rfl, faithful.divide rfl, ?_, tiled⟩
    intro line inside byte cutInside
    rcases List.mem_cons.mp inside with rfl | outside
    · exact parts _ member _ (SourceLine.cut_of_cut_upTo cutInside)
    · exact parts line outside byte cutInside
  forget tiling := by
    obtain ⟨rfl, faithful, parts, tiled⟩ := tiling
    exact ⟨rfl, faithful.forget, fun line inside => parts line (List.mem_cons_of_mem _ inside), tiled⟩

theorem tilingScans_exhausts (respects : engine.RespectsCuts) (grammar : CompiledGrammar)
    (styling : Styling) (whole : SourceLine) :
    (tilingScans respects grammar styling whole).Exhausts := by
  intro known a b tiling
  have tiling : Work.Tiling engine grammar whole known a b := tiling
  obtain ⟨rfl, faithful, parts, tiled⟩ := tiling
  exact Work.Tiling.mk rfl faithful parts tiled

end Scan

/-- Tokens that lie side by side, from one character to another. -/
def Token.Tile : Nat → Nat → List Token → Prop
  | start, stop, [] => start = stop
  | start, stop, token :: tokens => token.start = start ∧ Token.Tile token.stop stop tokens

section Tokens

variable {text : String}

theorem charCount_lineOf (text : String) :
    (Tokenizer.lineOf text).charCount = text.length + 1 := by
  rw [SourceLine.charCount_eq]
  simp [Tokenizer.lineOf, SourceLine.ofText, String.length_toList]

theorem contentLength_lineOf (text : String) :
    contentLength (Tokenizer.lineOf text) = text.length := by
  rw [contentLength, charCount_lineOf]
  rfl

/-- The line end takes the last byte. -/
theorem byteSize_lineOf (text : String) :
    (Tokenizer.lineOf text).byteSize = (Tokenizer.lineOf text).charToByte text.length + 1 := by
  rw [SourceLine.charToByte_eq, SourceLine.byteSize_eq]
  have chars : (Tokenizer.lineOf text).text.toList = text.toList ++ ['\n'] := by
    simp [Tokenizer.lineOf, SourceLine.ofText]
  rw [chars, byteLength_append, ← String.length_toList, List.take_left]
  rfl

/-- A byte before the line end belongs to a character of the text. -/
theorem byteToChar_lt_length (cut : (Tokenizer.lineOf text).Cut byte)
    (before : byte + 1 < (Tokenizer.lineOf text).byteSize) :
    (Tokenizer.lineOf text).byteToChar byte < text.length := by
  obtain ⟨index, bound, rfl⟩ := cut
  rw [SourceLine.byteToChar_charToByte _ bound]
  rw [byteSize_lineOf] at before
  by_cases inside : index < text.length
  · exact inside
  · have later := (Tokenizer.lineOf text).charToByte_mono (Nat.le_of_not_lt inside)
    omega

/-- Without the line end there are pieces side by side that start before it. -/
theorem dropLineEnd_tile (tiled : Pieces.Tiled line pieces) :
    (∃ stop, Piece.Tile 0 stop (dropLineEnd line Piece.start pieces.items.toList)) ∧
      ∀ piece ∈ dropLineEnd line Piece.start pieces.items.toList,
        piece ∈ pieces.items.toList ∧ piece.start + 1 < line.byteSize := by
  obtain ⟨tile, reached, cuts⟩ := tiled
  generalize pieces.items.toList = items at tile cuts ⊢
  rcases List.eq_nil_or_concat items with rfl | ⟨front, last, rfl⟩
  · refine ⟨⟨0, rfl⟩, fun piece absurd => ?_⟩
    cases absurd
  rw [List.concat_eq_append] at tile cuts ⊢
  obtain ⟨middle, before, starts, some, ends⟩ := (Piece.tile_append _ _ _ _).mp tile
  have bounded := (cuts last (by simp)).2.le_byteSize
  have inFront (piece : Piece) (member : piece ∈ front) : piece.start + 1 ≤ last.start := by
    obtain ⟨proper, upTo⟩ := before.bounds member
    omega
  unfold dropLineEnd
  simp only [List.getLast?_concat, Option.any_some, decide_eq_true_eq, List.dropLast_concat]
  split
  next atEnd =>
    refine ⟨⟨middle, before⟩, fun piece member => ⟨by simp [member], ?_⟩⟩
    have earlier := inFront piece member
    omega
  next inside =>
    refine ⟨⟨_, tile⟩, fun piece member => ⟨member, ?_⟩⟩
    rcases List.mem_append.mp member with earlier | own
    · have := inFront piece earlier
      omega
    · rw [List.mem_singleton.mp own]
      omega

/-- The tokens of pieces side by side that start before the line end lie side by
side up to the end of the text. -/
theorem stretchLast_tile {pieces : List Piece} (some : pieces ≠ [])
    (tile : Piece.Tile start stop pieces)
    (inside : ∀ piece ∈ pieces, (Tokenizer.lineOf text).Cut piece.start ∧
      (Tokenizer.lineOf text).Cut piece.stop ∧
      piece.start + 1 < (Tokenizer.lineOf text).byteSize) :
    let made := stretchLast text.length (pieces.map fun piece =>
      (⟨clampedChar (Tokenizer.lineOf text) piece.start,
        clampedChar (Tokenizer.lineOf text) piece.stop, piece.scopes.names⟩ : Token))
    Token.Tile ((Tokenizer.lineOf text).byteToChar start) text.length made ∧
      ∀ token ∈ made, token.start < token.stop := by
  induction pieces generalizing start with
  | nil => exact absurd rfl some
  | cons piece pieces ih =>
    obtain ⟨rfl, proper, rest⟩ := tile
    obtain ⟨startCut, stopCut, before⟩ := inside piece List.mem_cons_self
    have clamped {byte : Nat} (cut : (Tokenizer.lineOf text).Cut byte)
        (before : byte + 1 < (Tokenizer.lineOf text).byteSize) :
        clampedChar (Tokenizer.lineOf text) byte = (Tokenizer.lineOf text).byteToChar byte := by
      have bound := byteToChar_lt_length cut before
      rw [clampedChar, contentLength_lineOf]
      omega
    have bound := byteToChar_lt_length startCut before
    cases pieces with
    | nil =>
      simp only [List.map_cons, List.map_nil, stretchLast, clamped startCut before]
      refine ⟨⟨rfl, rfl⟩, fun token member => ?_⟩
      rw [List.mem_singleton.mp member]
      exact bound
    | cons next pieces =>
      obtain ⟨nextCut, _, nextBefore⟩ := inside next (by simp)
      obtain ⟨tokensTile, proper'⟩ := ih (by simp) rest fun piece member =>
        inside piece (List.mem_cons_of_mem _ member)
      rw [rest.1] at nextCut nextBefore
      have order := startCut.byteToChar_lt stopCut proper
      simp only [List.map_cons, stretchLast, clamped startCut before, clamped stopCut nextBefore]
      refine ⟨⟨rfl, tokensTile⟩, fun token member => ?_⟩
      rcases List.mem_cons.mp member with rfl | later
      · exact order
      · exact proper' token later

/-- The tokens of pieces side by side take in the whole text. -/
theorem tokens_tile (tiled : Pieces.Tiled (Tokenizer.lineOf text) pieces) (scopes : ScopePath) :
    tokens (Tokenizer.lineOf text) pieces scopes ≠ [] ∧
      Token.Tile 0 text.length (tokens (Tokenizer.lineOf text) pieces scopes) ∧
      (0 < text.length → ∀ token ∈ tokens (Tokenizer.lineOf text) pieces scopes,
        token.start < token.stop) ∧
      (text.length = 0 → ∃ names,
        tokens (Tokenizer.lineOf text) pieces scopes = [⟨0, 0, names⟩]) := by
  obtain ⟨⟨stop, tile⟩, inside⟩ := dropLineEnd_tile tiled
  have start : clampedChar (Tokenizer.lineOf text) 0 = 0 := by
    rw [clampedChar, SourceLine.byteToChar_zero, Nat.zero_min]
  unfold tokens visiblePieces
  rw [contentLength_lineOf]
  cases kept : dropLineEnd (Tokenizer.lineOf text) Piece.start pieces.items.toList with
  | nil =>
    simp only [List.map_cons, List.map_nil, stretchLast, start]
    refine ⟨by simp, ⟨rfl, rfl⟩, ?_, ?_⟩
    · intro long token member
      rw [List.mem_singleton.mp member]
      exact long
    · intro short
      rw [short]
      exact ⟨_, rfl⟩
  | cons piece rest =>
    rw [kept] at tile inside
    have visible : ∀ other ∈ piece :: rest, (Tokenizer.lineOf text).Cut other.start ∧
        (Tokenizer.lineOf text).Cut other.stop ∧
        other.start + 1 < (Tokenizer.lineOf text).byteSize := by
      intro other member
      obtain ⟨among, before⟩ := inside other member
      exact ⟨(tiled.cuts other among).1, (tiled.cuts other among).2, before⟩
    obtain ⟨tokensTile, proper⟩ := stretchLast_tile (by simp) tile visible
    rw [SourceLine.byteToChar_zero] at tokensTile
    have bound := byteToChar_lt_length (visible piece (by simp)).1 (visible piece (by simp)).2.2
    refine ⟨?_, tokensTile, fun _ => proper, fun short => by omega⟩
    cases rest <;> simp [stretchLast]

end Tokens
end Line

/-- The tokens of a line lie side by side and take in the whole line, whatever
state it is tokenized from and whenever the time is over. None of them is empty,
unless the line is: then there is one. -/
theorem scanLine_tokens_cover (tokenizer : Tokenizer) {engine : Engine}
    (respects : engine.RespectsCuts) {store : Store}
    (used : InUse engine tokenizer.grammar store) (theme : Theme) (state : Option Stack)
    (text : String) (clock : Clock) :
    let tokens := (tokenizer.scanLine engine theme state text clock store).1.tokens
    tokens ≠ [] ∧ Line.Token.Tile 0 text.length tokens ∧
      (0 < text.length → ∀ token ∈ tokens, token.start < token.stop) ∧
      (text.length = 0 → ∃ names, tokens = [⟨0, 0, names⟩]) := by
  have related : Line.Work.Tiling engine tokenizer.grammar (Tokenizer.lineOf text)
      [Tokenizer.lineOf text] { finder := { store := store } } { finder := { store := store } } := by
    refine ⟨rfl, .start used.serves Nat.zero_lt_one, ?_, Line.Pieces.tiled_empty _⟩
    intro line member byte cut
    rwa [List.mem_singleton.mp member] at cut
  have scanned := Line.Simulation.scan_related
    (Line.tilingScans_exhausts respects tokenizer.grammar (tokenizer.styling theme)
      (Tokenizer.lineOf text)) related (List.mem_singleton_self _)
    (.refl (tokenizer.startStack theme state)) rfl tokenizer.depth clock state.isNone trivial
  exact Line.tokens_tile scanned.2.2.tiled _

/-- A line with characters of several bytes, tokenized from the state that the
start of a region has left, with the engine that backtracks. -/
theorem scanLine_tokens_cover_region :
    backtracking.RespectsCuts ∧ InUse backtracking Sample.tokenizer.grammar Sample.store ∧
      let state := (Sample.tokenizer.scanLine backtracking .plain none "ax" (fun _ => false)
        Sample.store).1.state
      let tokens := (Sample.tokenizer.scanLine backtracking .plain (some state) "zéyü"
        (fun _ => false) Sample.store).1.tokens
      tokens ≠ [] ∧ Line.Token.Tile 0 "zéyü".length tokens ∧
        (0 < "zéyü".length → ∀ token ∈ tokens, token.start < token.stop) ∧
        ("zéyü".length = 0 → ∃ names, tokens = [⟨0, 0, names⟩]) :=
  ⟨Regex.respectsCuts_backtracking, Sample.inUse,
    scanLine_tokens_cover Sample.tokenizer Regex.respectsCuts_backtracking Sample.inUse .plain _
      "zéyü" _⟩

end ScopeLexer

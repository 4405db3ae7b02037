import ScopeLexer.Config
import ScopeLexer.Line.Piece
import ScopeLexer.Selector.Parser
import ScopeLexer.SourceLine

/-!
The tokens of a line, made from its pieces. A line is scanned with a line end at its end that does not
belong to it: a piece for the line end alone is left out, and the last token ends where the line does.
Tokens count in characters.

There are two forms. A plain token has the names of its scopes. A packed token has its metadata, and
goes up to the next one; neighbours never have the same metadata.
-/
namespace ScopeLexer.Line

open Style

/-- A stretch of a line, in characters, with its scopes, the outermost first. -/
structure Token where
  start : Nat
  stop : Nat
  scopes : List String
  deriving Repr, DecidableEq, Inhabited

/-- The start of a token, in characters, with its metadata. -/
structure PackedToken where
  start : Nat
  metadata : Metadata
  deriving Repr, DecidableEq, Inhabited

/-- The number of characters of a line without the line end. -/
def contentLength (line : SourceLine) : Nat := line.charCount - 1

/-- The character that starts at a byte, or the end of the content if that comes before. -/
def clampedChar (line : SourceLine) (byte : Nat) : Nat :=
  min (line.byteToChar byte) (contentLength line)

/-- Drops the last item if it starts at the line end. -/
def dropLineEnd {α : Type} (line : SourceLine) (start : α → Nat) (items : List α) : List α :=
  if items.getLast?.any fun last => decide (start last + 1 = line.byteSize) then items.dropLast
  else items

/-- Lets the last token end where the content does. -/
def stretchLast (stop : Nat) : List Token → List Token
  | [] => []
  | [last] => [{ last with stop := stop }]
  | token :: tokens => token :: stretchLast stop tokens

/-- The pieces that become tokens. If there are none, the whole line has the scopes given. -/
def visiblePieces (line : SourceLine) (pieces : Pieces) (scopes : ScopePath) : List Piece :=
  match dropLineEnd line Piece.start pieces.items.toList with
  | [] => [⟨0, line.byteSize, scopes⟩]
  | items => items

def tokens (line : SourceLine) (pieces : Pieces) (scopes : ScopePath) : List Token :=
  stretchLast (contentLength line) ((visiblePieces line pieces scopes).map fun piece =>
    ⟨clampedChar line piece.start, clampedChar line piece.stop, piece.scopes.names⟩)

/-- Where brackets are balanced. -/
structure Brackets where
  balanced : List Matcher
  unbalanced : List Matcher
  /-- Brackets are balanced where nothing else is said. -/
  everywhere : Bool
  deriving Repr, Inhabited

namespace Brackets

/-- The conditions in lists of selectors. -/
def matchersOf (selectors : List String) : List Matcher :=
  selectors.flatMap fun selector => (Selector.parse selector).map Selector.matcher

/-- Reads lists of selectors; `*` among the first is all text. -/
def ofSelectors (balanced unbalanced : List String) : Brackets where
  balanced := matchersOf (balanced.filter (· ≠ "*"))
  unbalanced := matchersOf unbalanced
  everywhere := balanced.contains "*"

/-- Whether brackets are balanced whatever the scopes are. -/
def isAlways (brackets : Brackets) : Bool := brackets.everywhere && brackets.unbalanced.isEmpty

/-- Whether brackets are balanced nowhere. -/
def isNever (brackets : Brackets) : Bool := brackets.balanced.isEmpty && !brackets.everywhere

/-- Whether brackets are balanced inside some scopes, the outermost first. -/
def hold (brackets : Brackets) (scopes : List String) : Bool :=
  if brackets.unbalanced.any (·.holds scopes) then false
  else if brackets.balanced.any (·.holds scopes) then true
  else brackets.everywhere

end Brackets

/-- A kind of token forced where a condition holds. -/
structure TypeOverride where
  matcher : Matcher
  tokenType : TokenType
  deriving Repr, Inhabited

/-- What is added to the metadata of a scope path to make that of a token. -/
structure Packing where
  /-- Of several overrides that hold, the last counts. -/
  overrides : List TypeOverride := []
  brackets : Option Brackets := none
  deriving Repr, Inhabited

namespace Packing

def ofConfig (config : GrammarConfig) : Packing where
  overrides := config.tokenTypes.entries.flatMap fun (selector, tokenType) =>
    (Selector.parse selector).map fun parsed => ⟨parsed.matcher, tokenType⟩
  brackets := some (.ofSelectors config.balancedBrackets config.unbalancedBrackets)

/-- Whether the names of the scopes have to be looked at. -/
def needsNames (packing : Packing) : Bool :=
  !packing.overrides.isEmpty ||
    packing.brackets.any fun brackets => !brackets.isAlways && !brackets.isNever

/-- The metadata with the overrides that hold. -/
def applyOverrides (packing : Packing) (names : List String) (metadata : Metadata) : Metadata :=
  packing.overrides.foldl (fun metadata override =>
    if override.matcher.holds names then metadata.set { tokenType := some override.tokenType }
    else metadata) metadata

/-- Whether brackets are balanced inside some scopes. -/
def isBalanced (packing : Packing) (scopes : ScopePath) : Bool :=
  if packing.needsNames then packing.brackets.any (·.hold scopes.names)
  else packing.brackets.any (·.isAlways)

def metadata (packing : Packing) (scopes : ScopePath) : Metadata :=
  let metadata :=
    if packing.needsNames then packing.applyOverrides scopes.names scopes.metadata
    else scopes.metadata
  if packing.isBalanced scopes then metadata.set { balanced := some true } else metadata

end Packing

/-- The packed tokens of a line up to a byte, in bytes, the last one first. -/
structure PackedPieces where
  tokens : List PackedToken := []
  /-- Where the last token ends. -/
  reached : Nat := 0
  deriving Repr, DecidableEq, Inhabited

namespace PackedPieces

/-- Adds a token that ends at a byte. Nothing is added if that has been reached, and the last token goes on if
it has the same metadata. -/
def produce (packing : Packing) (packed : PackedPieces) (scopes : ScopePath) (stop : Nat) : PackedPieces :=
  if stop ≤ packed.reached then packed
  else
    let metadata := packing.metadata scopes
    if packed.tokens.head?.any (·.metadata = metadata) then { packed with reached := stop }
    else { tokens := ⟨packed.reached, metadata⟩ :: packed.tokens, reached := stop }

/-- The packed tokens of pieces, added one after the other. -/
def ofPieces (packing : Packing) (pieces : Pieces) : PackedPieces :=
  pieces.items.toList.foldl (fun packed piece => packed.produce packing piece.scopes piece.stop) {}

end PackedPieces

def packedTokens (packing : Packing) (line : SourceLine) (pieces : Pieces) (scopes : ScopePath) :
    List PackedToken :=
  let packed := PackedPieces.ofPieces packing pieces
  let visible : List PackedToken := match dropLineEnd line PackedToken.start packed.tokens.reverse with
    | [] => [⟨0, packing.metadata scopes⟩]
    | items => items
  visible.map fun token : PackedToken => { token with start := clampedChar line token.start }

end ScopeLexer.Line

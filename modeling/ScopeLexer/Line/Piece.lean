import ScopeLexer.ScopePath

/-!
The pieces into which a line is cut while it is scanned. Pieces are added from left to right and none
is empty, so each starts where the one before it ends.
-/
namespace ScopeLexer.Line

/-- A stretch of a line, in bytes, with its scopes. -/
structure Piece where
  start : Nat
  stop : Nat
  scopes : ScopePath
  deriving Repr, DecidableEq, Inhabited

/-- The pieces of a line up to a byte. -/
structure Pieces where
  items : Array Piece := #[]
  /-- Where the last piece ends. -/
  reached : Nat := 0
  deriving Repr, DecidableEq, Inhabited

namespace Pieces

/-- Adds a piece that ends at a byte. Nothing is added if that has been reached. -/
def produce (pieces : Pieces) (scopes : ScopePath) (stop : Nat) : Pieces :=
  if stop ≤ pieces.reached then pieces
  else { items := pieces.items.push ⟨pieces.reached, stop, scopes⟩, reached := stop }

end Pieces
end ScopeLexer.Line

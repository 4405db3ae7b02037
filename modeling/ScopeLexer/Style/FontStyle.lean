import ScopeLexer.Text.Pieces

/-!
Font styles: any of italic, bold, underline and strikethrough. No style is a style too; where a style
may be left open, it is optional.

A style is stored in eight bits, of which the upper four have no meaning. What a theme says never sets
them, but a style that is read from outside may come with them.
-/
namespace ScopeLexer.Style

/-- A set of the four styles, in the lowest bits of a byte. -/
structure FontStyle where
  bits : BitVec 8
  deriving Repr, DecidableEq, Inhabited

namespace FontStyle

/-- Upright, of normal weight, without lines. -/
def plain : FontStyle := ⟨0⟩

def italic : FontStyle := ⟨1⟩

def bold : FontStyle := ⟨2⟩

def underline : FontStyle := ⟨4⟩

def strikethrough : FontStyle := ⟨8⟩

/-- The style of a number, of which only the four lowest bits count. -/
def ofNat (number : Nat) : FontStyle := ⟨BitVec.ofNat 8 number &&& 0b1111⟩

def toNat (style : FontStyle) : Nat := style.bits.toNat

def isPlain (style : FontStyle) : Bool := style.bits = 0

/-- Whether a style has all that another has. -/
def contains (style other : FontStyle) : Bool := style.bits &&& other.bits = other.bits

def union (style other : FontStyle) : FontStyle := ⟨style.bits ||| other.bits⟩

def ofWord : String → FontStyle
  | "italic" => italic
  | "bold" => bold
  | "underline" => underline
  | "strikethrough" => strikethrough
  | _ => plain

/-- The style of a list of words divided by spaces, such as `italic bold`. Words that name no style
do not count. -/
def ofText (text : String) : FontStyle :=
  (Text.pieces ' ' text).foldl (fun style word => style.union (ofWord word)) plain

/-- The style in the form that debug output has. -/
def describe (style : FontStyle) : String :=
  "FontStyle \x7b bits: " ++ toString style.toNat ++ " \x7d"

end FontStyle
end ScopeLexer.Style

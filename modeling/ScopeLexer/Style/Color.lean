import ScopeLexer.Text.Pieces

/-!
Colours, written `#RGB`, `#RGBA`, `#RRGGBB` or `#RRGGBBAA` in hexadecimal digits. One digit stands for
the same digit twice. A component of two characters may be a plus sign and a digit.
-/
namespace ScopeLexer.Style

structure Color where
  red : UInt8
  green : UInt8
  blue : UInt8
  alpha : UInt8
  deriving Repr, DecidableEq, Inhabited

inductive ColorError where
  | noHash
  | notAscii
  | badComponent (text : String)
  | badLength (length : Nat)
  deriving Repr, DecidableEq, Inhabited

def ColorError.reason : ColorError → String
  | .noHash => "missing leading '#'"
  | .notAscii => "non ascii characters"
  | .badComponent text => "invalid hex component '" ++ text ++ "'"
  | .badLength length => "invalid length " ++ toString length

namespace Color

def digit? (c : Char) : Option Nat :=
  if c.isDigit then some (c.toNat - '0'.toNat)
  else if 'a' ≤ c && c ≤ 'f' then some (c.toNat - 'a'.toNat + 10)
  else if 'A' ≤ c && c ≤ 'F' then some (c.toNat - 'A'.toNat + 10)
  else none

/-- The value of a component: one or two digits, or a plus sign and a digit. -/
def component (text : List Char) : Except ColorError Nat :=
  let value := match text with
    | [one] => digit? one
    | ['+', low] => digit? low
    | [high, low] => do return (← digit? high) * 16 + (← digit? low)
    | _ => none
  match value with
  | some value => .ok value
  | none => .error (.badComponent (String.ofList text))

/-- The value of a component of one digit, which counts twice. -/
def doubled (c : Char) : Except ColorError UInt8 := do
  return UInt8.ofNat ((← component [c]) * 17)

/-- The value of a component of two characters. -/
def paired (high low : Char) : Except ColorError UInt8 := do
  return UInt8.ofNat (← component [high, low])

def ofDigits : List Char → Except ColorError Color
  | [r, g, b] => do return ⟨← doubled r, ← doubled g, ← doubled b, 255⟩
  | [r, g, b, a] => do return ⟨← doubled r, ← doubled g, ← doubled b, ← doubled a⟩
  | [r, r', g, g', b, b'] => do
    return ⟨← paired r r', ← paired g g', ← paired b b', 255⟩
  | [r, r', g, g', b, b', a, a'] => do
    return ⟨← paired r r', ← paired g g', ← paired b b', ← paired a a'⟩
  | digits => .error (.badLength digits.length)

def ofHex (text : String) : Except ColorError Color :=
  match text.toList with
  | '#' :: digits =>
    if digits.all (·.val < 0x80) then ofDigits digits else .error .notAscii
  | _ => .error .noHash

def isHex (text : String) : Bool := (ofHex text).isOk

/-- The hexadecimal digit of a value below sixteen. -/
def hexDigit (value : Nat) : Char :=
  if value < 10 then Char.ofNat ('0'.toNat + value) else Char.ofNat ('A'.toNat + (value - 10))

def hexPair (value : UInt8) : List Char :=
  [hexDigit (value.toNat / 16), hexDigit (value.toNat % 16)]

/-- Writes a colour in capitals. The opacity is written only if the colour is not opaque. -/
def toHex (color : Color) : String :=
  let opaqueDigits := hexPair color.red ++ hexPair color.green ++ hexPair color.blue
  let digits := if color.alpha < 255 then opaqueDigits ++ hexPair color.alpha else opaqueDigits
  String.ofList ('#' :: digits)

/-- The components without opacity, as terminals want them. -/
def parameters (color : Color) : String :=
  ";".intercalate ([color.red, color.green, color.blue].map fun value => toString value.toNat)

/-- The terminal parameters of the colour as foreground. -/
def toForeground (color : Color) : String := "38;2;" ++ color.parameters

/-- The terminal parameters of the colour as background. -/
def toBackground (color : Color) : String := "48;2;" ++ color.parameters

end Color
end ScopeLexer.Style

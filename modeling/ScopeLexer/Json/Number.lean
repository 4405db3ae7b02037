import ScopeLexer.Json.Value
import ScopeLexer.Text.Decimal

/-!
The values of JSON numbers. An integer is one if it is written as such and fits 64 bits; every other
number is a binary floating point number of 64 bits. It comes from the leading digits that fit 64 bits,
which are rounded first and then multiplied or divided by a power of ten, so the last digit of the
result may be off by one.
-/
namespace ScopeLexer.Json

/-- The value of a JSON number. -/
inductive NumberValue where
  | integer (value : Int)
  /-- A floating point number, as shown. -/
  | real (shown : String)
  /-- Larger than any floating point number. -/
  | tooLarge
  deriving Repr, DecidableEq, Inhabited

/-- Appends digits to a number for as long as it fits 64 bits. Gives the number, and the digits that
were left. -/
def appendDigits : Nat → List Nat → Nat × List Nat
  | value, [] => (value, [])
  | value, digit :: digits =>
    if value * 10 + digit < 0x10000000000000000 then appendDigits (value * 10 + digit) digits
    else (value, digit :: digits)

/-- The leading digits of a number, and the power of ten that they are to be multiplied with. -/
def Number.leading (literal : Number) : Text.Decimal :=
  let (whole, dropped) := appendDigits 0 literal.whole
  let (digits, ignored) := appendDigits whole literal.fraction
  let places : Nat := literal.fraction.length - ignored.length
  { digits := digits
    exponent := literal.exponent.getD 0 + dropped.length - places }

/-- The largest power of ten that a floating point number reaches. -/
def maxPower : Nat := 308

/-- The floating point number nearest to a power of ten. -/
def powerOfTen (power : Nat) : Float := Float.ofScientific 1 false power

/-- A floating point number divided by a power of ten, in several steps if the power is large. -/
def divideByPower (value : Float) (power : Nat) : Float :=
  if value == 0 then value
  else if maxPower < power then divideByPower (value / powerOfTen maxPower) (power - maxPower)
  else value / powerOfTen power
termination_by power
decreasing_by simp only [maxPower] at *; omega

/-- A floating point number multiplied by a power of ten, unless the product is too large. -/
def multiplyByPower? (value : Float) (power : Nat) : Option Float :=
  if value == 0 then some value
  else if maxPower < power then none
  else
    let product := value * powerOfTen power
    if product.isInf then none else some product

/-- The floating point number of the leading digits, unless it is too large. -/
def Number.real? (literal : Number) : Option Float :=
  let leading := literal.leading
  let rounded := Float.ofNat leading.digits
  let magnitude :=
    if 0 ≤ leading.exponent then multiplyByPower? rounded leading.exponent.toNat
    else some (divideByPower rounded (-leading.exponent).toNat)
  if literal.negative then magnitude.map (- ·) else magnitude

/-- The value of a number that is not an integer of 64 bits. -/
def Number.realValue (literal : Number) : NumberValue :=
  match literal.real? with
  | some value => .real (Text.showReal value)
  | none => .tooLarge

/-- The value of a number: an integer if it is written as one and fits 64 bits. Zero with a sign is
none. -/
def Number.value (literal : Number) : NumberValue :=
  let natural := literal.natural
  if !literal.isInteger then literal.realValue
  else if literal.negative then
    if natural = 0 || 0x8000000000000000 < natural then literal.realValue
    else .integer (-natural)
  else if natural < 0x10000000000000000 then .integer natural
  else literal.realValue

end ScopeLexer.Json

/-!
Floating point numbers of 64 bits in decimal notation. A number is shown by the fewest digits that read
back as it and, of those, by the nearest; it is written out in full from `10 ^ -5` up to below `10 ^ 16`
and with an exponent elsewhere.
-/
namespace ScopeLexer.Text

/-- The number of decimal digits of a number. -/
def digitCount (value : Nat) : Nat := (Nat.toDigits 10 value).length

/-- A positive floating point number: `mantissa * 2 ^ exponent`. -/
structure Binary where
  mantissa : Nat
  exponent : Int

/-- The parts of a finite positive floating point number. -/
def Binary.ofFloat (value : Float) : Binary :=
  let bits := value.toBits.toNat
  let field : Nat := (bits >>> 52) % (1 <<< 11)
  let fraction : Nat := bits % (1 <<< 52)
  if field = 0 then ⟨fraction, -1074⟩ else ⟨fraction + (1 <<< 52), (field : Int) - 1075⟩

/-- A positive floating point number as a fraction of natural numbers. -/
def Binary.fraction (value : Binary) : Nat × Nat :=
  if 0 ≤ value.exponent then (value.mantissa <<< value.exponent.toNat, 1)
  else (value.mantissa, 1 <<< (-value.exponent).toNat)

/-- `digits * 10 ^ exponent`. -/
structure Decimal where
  digits : Nat
  exponent : Int
  deriving Repr, DecidableEq, Inhabited

namespace Decimal

/-- The floating point number nearest to a decimal. -/
def toFloat (value : Decimal) : Float :=
  if 0 ≤ value.exponent then
    Float.ofScientific (value.digits * Nat.pow 10 value.exponent.toNat) false 0
  else Float.ofScientific value.digits true (-value.exponent).toNat

/-- The two decimals with `count` digits next to a fraction, the nearer one first; of two that are
equally near the even one. The leading digit of the fraction stands for `10 ^ order`. -/
def neighbours (numerator denominator : Nat) (order : Int) (count : Nat) : List Decimal :=
  let exponent := order - count + 1
  let (scaledUp, scaledDown) :=
    if 0 ≤ exponent then (numerator, denominator * Nat.pow 10 exponent.toNat)
    else (numerator * Nat.pow 10 (-exponent).toNat, denominator)
  let below := scaledUp / scaledDown
  let remainder := scaledUp % scaledDown
  let low : Decimal := ⟨below, exponent⟩
  let high : Decimal := ⟨below + 1, exponent⟩
  if scaledDown < 2 * remainder || scaledDown = 2 * remainder && below % 2 = 1 then [high, low]
  else [low, high]

/-- The order of magnitude of a fraction, from a first guess that may be one too large. -/
def orderOf (numerator denominator : Nat) : Int :=
  let guess : Int := (digitCount numerator : Int) - digitCount denominator
  let reaches : Bool :=
    if 0 ≤ guess then denominator * Nat.pow 10 guess.toNat ≤ numerator
    else denominator ≤ numerator * Nat.pow 10 (-guess).toNat
  if reaches then guess else guess - 1

/-- The shortest decimal that reads back as a positive finite number. Seventeen digits always do. -/
def shortest (value : Float) : Decimal :=
  let (numerator, denominator) := (Binary.ofFloat value).fraction
  let order := orderOf numerator denominator
  let candidates := (List.range 17).flatMap fun count =>
    neighbours numerator denominator order (count + 1)
  (candidates.find? fun decimal => decimal.toFloat.toBits == value.toBits).getD ⟨0, 0⟩

/-- Digits in full, the point standing after the first `point` of them. At least one digit stands on
either side of it. -/
def positional (digits : List Char) (point : Int) : List Char :=
  let whole := (digits ++ List.replicate (point.toNat - digits.length) '0').take point.toNat
  let fraction := List.replicate (-point).toNat '0' ++ digits.drop point.toNat
  let orZero (part : List Char) := if part.isEmpty then ['0'] else part
  orZero whole ++ '.' :: orZero fraction

/-- Digits with a point after the first one, if there are more, and the exponent with its sign. -/
def scientific (digits : List Char) (exponent : Int) : List Char :=
  digits.take 1 ++ (if digits.length = 1 then [] else '.' :: digits.drop 1) ++
    ['e', if exponent < 0 then '-' else '+'] ++ Nat.toDigits 10 exponent.natAbs

/-- A decimal as shown: in full if its point stands within the first sixteen digits or after fewer than
five zeros, and with an exponent otherwise. -/
def shown (value : Decimal) : String :=
  let digits := ((Nat.toDigits 10 value.digits).reverse.dropWhile (· = '0')).reverse
  let point := (digitCount value.digits : Int) + value.exponent
  String.ofList
    (if -5 < point && point ≤ 16 then positional digits point else scientific digits (point - 1))

end Decimal

/-- A floating point number that is finite, as shown. -/
def showReal (value : Float) : String :=
  let isNegative := value.toBits.toNat >>> 63 = 1
  (if isNegative then "-" else "") ++
    (if value == 0 then "0.0" else (Decimal.shortest value.abs).shown)

end ScopeLexer.Text

/-!
JSON documents as they stand in a text. Members keep their order and may repeat a name, numbers keep
their digits, and a text that goes wrong is kept up to the place where it does: whoever reads the
value meets the fault there, after everything that stands before it. Whoever skips a value looks less
closely, and may meet another fault or none.
-/
namespace ScopeLexer

namespace Json

inductive Fault where
  /-- The text ends too early. -/
  | ended
  /-- The text is no JSON. -/
  | malformed
  deriving Repr, DecidableEq, Inhabited

structure Number where
  negative : Bool
  /-- The digits before the point. -/
  whole : List Nat
  /-- The digits after the point. A point has some. -/
  fraction : List Nat
  exponent : Option Int
  deriving Repr, DecidableEq, Inhabited

/-- Neither a point nor an exponent is written. -/
def Number.isInteger (literal : Number) : Bool :=
  literal.fraction.isEmpty && literal.exponent.isNone

/-- The number that some decimal digits write. -/
def digitsValue (digits : List Nat) : Nat :=
  digits.foldl (fun value digit => value * 10 + digit) 0

/-- The number that the digits before the point write. -/
def Number.natural (literal : Number) : Nat := digitsValue literal.whole

inductive CutToken where
  /-- `null`, `true` or `false`. -/
  | word
  /-- A number that still needs a digit. -/
  | number
  deriving Repr, DecidableEq, Inhabited

/-- What stands where the name of a member should. -/
inductive Name where
  | text (value : String)
  /-- A string with half of a surrogate pair: it can be skipped and not be read. -/
  | loneSurrogate
  /-- No string. What stands there instead is kept as the member's value. -/
  | missing
  deriving Repr, DecidableEq, Inhabited

end Json

inductive Json where
  | null
  | bool (value : Bool)
  | number (value : Json.Number)
  | string (value : String)
  /-- A string with half of a surrogate pair: it can be skipped and not be read. A fault may follow
  in it. -/
  | loneSurrogate (later : Option Json.Fault)
  /-- Items up to the end of the array, or up to a fault. -/
  | array (items : List Json) (fault : Option Json.Fault)
  /-- Members up to the end of the object, or up to a fault. -/
  | object (members : List (Json.Name × Json)) (fault : Option Json.Fault)
  /-- The text ends in a word or a number. -/
  | cut (token : Json.CutToken)
  /-- A fault where a value should stand. -/
  | broken (fault : Json.Fault)
  deriving Repr, Inhabited

namespace Json

/-- The fault of a name that is no string, given what stands there. -/
def missingNameFault : Json → Fault
  | .broken fault => fault
  | _ => .malformed

mutual

/-- The first fault in a value that is skipped. A number that the text ends in is no number then. -/
def skipFault : Json → Option Fault
  | .null | .bool _ | .number _ | .string _ => none
  | .loneSurrogate later => later
  | .array items fault => (skipFaultItems items).orElse fun _ => fault
  | .object members fault => (skipFaultMembers members).orElse fun _ => fault
  | .cut .word => some .ended
  | .cut .number => some .malformed
  | .broken fault => some fault

/-- The first fault in items that are skipped. -/
def skipFaultItems : List Json → Option Fault
  | [] => none
  | item :: items => item.skipFault.orElse fun _ => skipFaultItems items

/-- The first fault in members that are skipped. -/
def skipFaultMembers : List (Name × Json) → Option Fault
  | [] => none
  | (.missing, value) :: _ => some (missingNameFault value)
  | (_, value) :: members => value.skipFault.orElse fun _ => skipFaultMembers members

end

end Json
end ScopeLexer

import ScopeLexer.Json.Value

/-!
Writing JSON without spaces. Control characters are escaped; all other characters stand for themselves.
-/
namespace ScopeLexer.Json

/-- The hexadecimal digit of a value below sixteen. -/
def lowHexDigit (value : Nat) : Char := (Nat.toDigits 16 value).headD '0'

def writeChar (c : Char) : List Char :=
  if c = '"' then ['\\', '"']
  else if c = '\\' then ['\\', '\\']
  else if c = '\n' then ['\\', 'n']
  else if c = '\r' then ['\\', 'r']
  else if c = '\t' then ['\\', 't']
  else if c = '\x08' then ['\\', 'b']
  else if c = '\x0c' then ['\\', 'f']
  else if c.val < 0x20 then
    ['\\', 'u', '0', '0', lowHexDigit (c.toNat / 16), lowHexDigit (c.toNat % 16)]
  else [c]

def writeString (text : String) : String :=
  String.ofList ('"' :: text.toList.flatMap writeChar ++ ['"'])

def ofInt (value : Int) : Json :=
  .number ⟨value < 0, (Nat.toDigits 10 value.natAbs).map fun c => c.toNat - '0'.toNat, [], none⟩

def ofNat (value : Nat) : Json := ofInt value

def ofList (items : List Json) : Json := .array items none

def ofMembers (members : List (String × Json)) : Json :=
  .object (members.map fun (name, value) => (.text name, value)) none

def writeDigit (digit : Nat) : Char := Char.ofNat ('0'.toNat + digit)

/-- A number with the digits that it was read with. -/
def writeNumber (literal : Number) : String :=
  let sign := if literal.negative then "-" else ""
  let point := if literal.fraction.isEmpty then "" else "."
  let exponent := (literal.exponent.map fun value => "e" ++ toString value).getD ""
  sign ++ String.ofList (literal.whole.map writeDigit) ++ point ++
    String.ofList (literal.fraction.map writeDigit) ++ exponent

mutual

/-- The text of a value. A fault has none and is written as null. -/
def write : Json → String
  | .null => "null"
  | .bool value => if value then "true" else "false"
  | .number literal => writeNumber literal
  | .string value => writeString value
  | .loneSurrogate _ => "null"
  | .array items _ => "[" ++ ",".intercalate (writeItems items) ++ "]"
  | .object members _ => "\x7b" ++ ",".intercalate (writeMembers members) ++ "\x7d"
  | .cut _ | .broken _ => "null"

/-- The texts of items. -/
def writeItems : List Json → List String
  | [] => []
  | item :: items => write item :: writeItems items

/-- The texts of members. One without a name has none. -/
def writeMembers : List (Name × Json) → List String
  | [] => []
  | (.text name, value) :: members => (writeString name ++ ":" ++ write value) :: writeMembers members
  | _ :: members => writeMembers members

end

end ScopeLexer.Json

import ScopeLexer.Json.Value

/-!
Reading JSON text. The reader stops at the first fault and gives what it read up to there; what follows
a value is left to whoever asked for it.
-/
namespace ScopeLexer.Json

/-- Whether a character may stand between the tokens of a document. -/
def isSpace (c : Char) : Bool := c = ' ' || c = '\n' || c = '\t' || c = '\r'

/-- The text without the spaces at its start. -/
def skipSpaces (chars : List Char) : List Char := chars.dropWhile isSpace

def hexDigit? (c : Char) : Option Nat :=
  if c.isDigit then some (c.toNat - '0'.toNat)
  else if 'a' ≤ c && c ≤ 'f' then some (c.toNat - 'a'.toNat + 10)
  else if 'A' ≤ c && c ≤ 'F' then some (c.toNat - 'A'.toNat + 10)
  else none

/-- The number that four hexadecimal digits write. The text ends too early if fewer than four bytes
are left of it. -/
def hexUnit (chars : List Char) : Except Fault Nat :=
  if (String.ofList (chars.take 4)).utf8ByteSize < 4 then .error .ended
  else
    match (chars.take 4).mapM hexDigit? with
    | some digits => .ok (digits.foldl (fun value digit => value * 16 + digit) 0)
    | none => .error .malformed

/-- A character that an escape writes, or half of a surrogate pair, and how many characters after the
backslash it takes. -/
def readUnicodeEscape (rest : List Char) : Except Fault (Option Char × Nat) := do
  let unit ← hexUnit rest
  if 0xdc00 ≤ unit && unit ≤ 0xdfff then return (none, 5)
  else if 0xd800 ≤ unit && unit ≤ 0xdbff then
    match rest.drop 4 with
    | [] => throw .ended
    | ['\\'] => throw .ended
    | '\\' :: 'u' :: low => do
      let second ← hexUnit low
      if 0xdc00 ≤ second && second ≤ 0xdfff then
        return (some (Char.ofNat (0x10000 + (unit - 0xd800) * 0x400 + (second - 0xdc00))), 11)
      else return (none, 5)
    | _ => return (none, 5)
  else return (some (Char.ofNat unit), 5)

/-- Reads an escape, given what follows the backslash. -/
def readEscape : List Char → Except Fault (Option Char × Nat)
  | [] => .error .ended
  | '"' :: _ => .ok (some '"', 1)
  | '\\' :: _ => .ok (some '\\', 1)
  | '/' :: _ => .ok (some '/', 1)
  | 'b' :: _ => .ok (some '\x08', 1)
  | 'f' :: _ => .ok (some '\x0c', 1)
  | 'n' :: _ => .ok (some '\n', 1)
  | 'r' :: _ => .ok (some '\r', 1)
  | 't' :: _ => .ok (some '\t', 1)
  | 'u' :: rest => readUnicodeEscape rest
  | _ => .error .malformed

/-- What a string held: its characters, or a lone half of a surrogate pair and what went wrong after
it. -/
inductive StringResult where
  | text (value : String) (rest : List Char)
  | lone (later : Option Fault) (rest : List Char)
  | fault (fault : Fault)

/-- The result of a string that ends in a fault. -/
def StringResult.ofFault (isLone : Bool) (fault : Fault) : StringResult :=
  if isLone then .lone (some fault) [] else .fault fault

/-- Reads a string after its opening quote. The characters read are given the last one first. -/
def readStringFrom (read : List Char) (isLone : Bool) : List Char → StringResult
  | [] => .ofFault isLone .ended
  | '"' :: rest =>
    if isLone then .lone none rest else .text (String.ofList read.reverse) rest
  | '\\' :: rest =>
    match readEscape rest with
    | .error fault => .ofFault isLone fault
    | .ok (some c, width) => readStringFrom (c :: read) isLone (rest.drop width)
    | .ok (none, width) => readStringFrom read true (rest.drop width)
  | c :: rest =>
    if c.val < 0x20 then .ofFault isLone .malformed
    else readStringFrom (c :: read) isLone rest
termination_by chars => chars.length
decreasing_by all_goals simp only [List.length_drop, List.length_cons]; omega

/-- The digits at the start of a text, and what follows them. -/
def readDigits (chars : List Char) : List Nat × List Char :=
  let digits := chars.takeWhile Char.isDigit
  (digits.map fun c => c.toNat - '0'.toNat, chars.drop digits.length)

/-- A value that holds a fault, so that nothing is read after it. -/
def stopped (value : Json) : Json × Option (List Char) := (value, none)

/-- The value where a digit is needed and is not there. -/
def withoutDigit (rest : List Char) : Json :=
  if rest.isEmpty then .cut .number else .broken .malformed

/-- Reads the exponent of a number, given what follows the letter. -/
def readExponent (rest : List Char) : Except Json (Int × List Char) :=
  let (negative, body) := match rest with
    | '-' :: body => (true, body)
    | '+' :: body => (false, body)
    | _ => (false, rest)
  let (digits, after) := readDigits body
  if digits.isEmpty then .error (withoutDigit after)
  else
    let value : Int := digitsValue digits
    .ok (if negative then -value else value, after)

/-- Reads a number that starts with a digit, the sign having been read. -/
def readNumber (negative : Bool) (chars : List Char) : Except Json (Number × List Char) := do
  let (whole, rest) := readDigits chars
  if whole.isEmpty then throw (withoutDigit rest)
  if whole.head? = some 0 && 1 < whole.length then throw (.broken .malformed)
  let (fraction, rest) ← match rest with
    | '.' :: body =>
      let (digits, after) := readDigits body
      if digits.isEmpty then throw (withoutDigit after) else pure (digits, after)
    | _ => pure ([], rest)
  let (exponent, rest) ← match rest with
    | 'e' :: body | 'E' :: body => do
      let (exponent, after) ← readExponent body
      pure (some exponent, after)
    | _ => pure (none, rest)
  return (⟨negative, whole, fraction, exponent⟩, rest)

def readNumberValue (negative : Bool) (chars : List Char) : Json × Option (List Char) :=
  match readNumber negative chars with
  | .ok (literal, rest) => (.number literal, some rest)
  | .error value => stopped value

/-- Reads the letters of a word, the first one having been read. -/
def readWord (value : Json) : List Char → List Char → Json × Option (List Char)
  | [], rest => (value, some rest)
  | _ :: _, [] => stopped (.cut .word)
  | c :: word, d :: rest =>
    if c = d then readWord value word rest else stopped (.broken .malformed)

def readString (rest : List Char) : Json × Option (List Char) :=
  match readStringFrom [] false rest with
  | .text value rest => (.string value, some rest)
  | .lone none rest => (.loneSurrogate none, some rest)
  | .lone (some fault) _ => stopped (.loneSurrogate (some fault))
  | .fault fault => stopped (.broken fault)

mutual

/-- Reads a value. Gives it with what follows it, or with nothing if a fault was met. The first
argument bounds the steps. -/
def readValue : Nat → List Char → Json × Option (List Char)
  | 0, _ => stopped (.broken .malformed)
  | steps + 1, chars =>
    match skipSpaces chars with
    | [] => stopped (.broken .ended)
    | 'n' :: rest => readWord .null "ull".toList rest
    | 't' :: rest => readWord (.bool true) "rue".toList rest
    | 'f' :: rest => readWord (.bool false) "alse".toList rest
    | '"' :: rest => readString rest
    | '[' :: rest =>
      let (items, fault, after) := readItems steps true rest
      (.array items fault, after)
    | '\x7b' :: rest =>
      let (members, fault, after) := readMembers steps true rest
      (.object members fault, after)
    | '-' :: rest => readNumberValue true rest
    | c :: rest =>
      if c.isDigit then readNumberValue false (c :: rest) else stopped (.broken .malformed)

/-- Reads the items of an array up to its bracket. An item has to follow a comma. -/
def readItems : Nat → Bool → List Char → List Json × Option Fault × Option (List Char)
  | 0, _, _ => ([], some .malformed, none)
  | steps + 1, isFirst, chars =>
    let item (chars : List Char) : List Json × Option Fault × Option (List Char) :=
      match readValue steps chars with
      | (value, none) => ([value], none, none)
      | (value, some rest) =>
        let (items, fault, after) := readItems steps false rest
        (value :: items, fault, after)
    match skipSpaces chars with
    | [] => ([], some .ended, none)
    | ']' :: rest => ([], none, some rest)
    | c :: rest =>
      if isFirst then item (c :: rest)
      else if c = ',' then item rest
      else ([], some .malformed, none)

/-- Reads the members of an object up to its brace. A member has to follow a comma. -/
def readMembers : Nat → Bool → List Char →
    List (Name × Json) × Option Fault × Option (List Char)
  | 0, _, _ => ([], some .malformed, none)
  | steps + 1, isFirst, chars =>
    let valueOf (name : Name) (rest : List Char) :
        List (Name × Json) × Option Fault × Option (List Char) :=
      match skipSpaces rest with
      | [] => ([(name, .broken .ended)], none, none)
      | ':' :: rest =>
        match readValue steps rest with
        | (value, none) => ([(name, value)], none, none)
        | (value, some rest) =>
          let (members, fault, after) := readMembers steps false rest
          ((name, value) :: members, fault, after)
      | _ => ([(name, .broken .malformed)], none, none)
    let member (chars : List Char) : List (Name × Json) × Option Fault × Option (List Char) :=
      match skipSpaces chars with
      | '"' :: rest =>
        match readStringFrom [] false rest with
        | .fault fault => ([], some fault, none)
        | .lone none rest => valueOf .loneSurrogate rest
        | .lone (some fault) _ => ([(.loneSurrogate, .broken fault)], none, none)
        | .text name rest => valueOf (.text name) rest
      | rest => ([(.missing, (readValue steps rest).1)], none, none)
    match skipSpaces chars with
    | [] => ([], some .ended, none)
    | '\x7d' :: rest => ([], none, some rest)
    | c :: rest =>
      if isFirst then member (c :: rest)
      else if c = ',' then member rest
      else ([], some .malformed, none)

end

/-- A document that has been read: its value, and what is wrong after it. -/
structure Document where
  value : Json
  /-- Something other than spaces follows the value. -/
  trailing : Bool
  deriving Inhabited

/-- Reads a document. Every step but a bounded number per character reads a character, so the bound
is never met. -/
def readDocument (text : String) : Document :=
  let chars := text.toList
  match readValue (2 * chars.length + 2) chars with
  | (value, some rest) => ⟨value, !(skipSpaces rest).isEmpty⟩
  | (value, none) => ⟨value, false⟩

end ScopeLexer.Json

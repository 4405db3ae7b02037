import ScopeLexer.Regex.Error
import ScopeLexer.Regex.Escape

/-!
Names of groups in brackets, where a group is opened, called or referred to. A name starts with a word
character; a number, which may be counted from the present group, names a group only where it is called
or referred to. A refusal quotes what was read of the name.
-/
namespace ScopeLexer.Regex

inductive Named where
  | name (text : String)
  /-- The group with a number. -/
  | number (index : Nat)
  /-- The group so many before or after the present one. -/
  | relative (back : Bool) (distance : Nat)
  deriving Repr, DecidableEq, Inhabited

/-- The largest number that a name can be. -/
def largestNumber : Nat := 0x7fffffff

/-- How many characters a name has that is quoted in a refusal, when it was found bad after so many:
up to its end, and all there are if that is where the pattern ends. -/
def badNameLength (close : Char) (start : Nat) (chars : List Char) : Nat :=
  let inner := (chars.drop start).takeWhile fun c => c ≠ close && c ≠ ')'
  if chars.length ≤ start + inner.length + 1 then chars.length else start + inner.length

/-- A name up to its closing bracket, its first character being fine: how many characters it has. -/
def readNameBody (close : Char) (chars : List Char) : Except Error Nat :=
  let body := chars.tail.takeWhile fun c => c ≠ close && c ≠ ')'
  let length := body.length + 1
  match chars[length]? with
  | some c =>
    if c = close then .ok length else .error (.badName (String.ofList (chars.take length)))
  | none =>
    .error (.badName (String.ofList (if length = 1 then chars else chars.take (length - 1))))

/-- Reads the name of a group that is opened, given what follows the opening bracket. Gives also how
many characters that took with the closing one. -/
def readName (close : Char) (chars : List Char) : Except Error (String × Nat) :=
  let quoted := String.ofList (chars.take (badNameLength close 1 chars))
  match chars with
  | [] => .error .emptyName
  | first :: _ =>
    if first = close then .error .emptyName
    else if first.isDigit || first = '-' || first = '+' then .error (.badName quoted)
    else if !isWordChar false first then .error (.badNameChar quoted)
    else do
      let length ← readNameBody close chars
      return (String.ofList (chars.take length), length + 1)

/-- Reads the number of a group that is called, `sign` being how many characters its sign has. -/
def readCalledNumber (close : Char) (sign : Nat) (chars : List Char) : Except Error (Nat × Nat) :=
  let digits := (chars.drop sign).takeWhile Char.isDigit
  let length := sign + digits.length
  let quoted := String.ofList (chars.take (badNameLength close (length + 1) chars))
  match chars[length]? with
  | none =>
    .error (.badName (String.ofList (if length = 1 then chars else chars.take (length - 1))))
  | some c =>
    if c = close || c = ')' then
      if digits.isEmpty then .error (.badName quoted)
      else if c ≠ close then .error (.badName (String.ofList (chars.take length)))
      else if largestNumber < decimalNumber digits then .error .numberTooLarge
      else if sign = 1 && decimalNumber digits = 0 then
        .error (.badName (String.ofList (chars.take length)))
      else .ok (decimalNumber digits, length + 1)
    else if isWordChar false c then .error (.badName quoted)
    else .error (.badNameChar quoted)

/-- Reads what a call names, given what follows the opening bracket. -/
def readCallee (close : Char) (chars : List Char) : Except Error (Named × Nat) :=
  match chars with
  | [] => .error .emptyName
  | first :: _ =>
    if first = close then .error .emptyName
    else if first.isDigit then do
      let (number, width) ← readCalledNumber close 0 chars
      return (.number number, width)
    else if first = '-' || first = '+' then do
      let (number, width) ← readCalledNumber close 1 chars
      return (.relative (first = '-') number, width)
    else do
      let (name, width) ← readName close chars
      return (.name name, width)

/-- How far the name of a reference has been read. -/
structure NameScan where
  /-- What is wrong with it. -/
  fault : Option (String → Error) := none
  /-- Whether it may still be a number. -/
  numeric : Bool
  /-- How many digits it has. -/
  digits : Nat
  /-- How many characters have been read. -/
  taken : Nat
  /-- How many of them are the name. -/
  length : Nat
  last : Char

/-- The scan after one more character of the name. -/
def NameScan.pass (scan : NameScan) (c : Char) : NameScan :=
  let scan := { scan with length := scan.taken, taken := scan.taken + 1, last := c }
  if scan.numeric && c.isDigit then { scan with digits := scan.digits + 1 }
  else if scan.numeric then { scan with fault := some .badName, numeric := false }
  else if isWordChar false c then scan
  else { scan with fault := some .badNameChar }

/-- The scan after the character that ends the name. -/
def NameScan.finish (scan : NameScan) (c : Char) : NameScan :=
  let scan := { scan with length := scan.taken, taken := scan.taken + 1, last := c }
  if scan.numeric && scan.digits = 0 then { scan with fault := some .badName } else scan

/-- Reads on in the name of a reference, up to its closing bracket or a sign. -/
def NameScan.run (close : Char) (scan : NameScan) : List Char → NameScan
  | [] => scan
  | c :: rest =>
    if c = close || c = ')' || c = '+' || c = '-' then scan.finish c
    else run close (scan.pass c) rest

/-- The scan of a name that starts with a character, given how many characters there are. -/
def NameScan.start (first : Char) (available : Nat) : NameScan :=
  let signed := first = '-' || first = '+'
  { fault := if signed || isWordChar false first then none else some .badNameChar
    numeric := signed || first.isDigit
    digits := if first.isDigit then 1 else 0
    taken := 1, length := available, last := first }

/-- Reads the level of calls after a name that has been scanned, if a sign asks for one. Gives also how
many characters the name takes with it. -/
def NameScan.readLevel (scan : NameScan) (close : Char) (chars : List Char) :
    Except Error (Option Int × Nat) :=
  let after := chars.drop scan.taken
  if scan.last = close then .ok (none, scan.taken)
  else if scan.last = '+' || scan.last = '-' then
    let digits := after.takeWhile Char.isDigit
    if after.isEmpty then .error (.badNameChar (String.ofList (chars.take scan.length)))
    else if digits.isEmpty then .error (.badName (String.ofList chars))
    else if largestNumber < decimalNumber digits then .error .numberTooLarge
    else if after[digits.length]? ≠ some close then .error (.badName (String.ofList chars))
    else
      let level : Int := decimalNumber digits
      .ok (some (if scan.last = '-' then -level else level), scan.taken + digits.length + 1)
  else .error (.badName (String.ofList chars))

/-- What a name stands for that starts with a character, its number being one that can be. -/
def Named.ofWritten (numeric : Bool) (first : Char) (written : List Char) : Except Error Named :=
  let number := decimalNumber (written.filter Char.isDigit)
  let signed := first = '-' || first = '+'
  if !numeric then .ok (.name (String.ofList written))
  else if largestNumber < number then .error .numberTooLarge
  else if signed && number = 0 then .error (.badName (String.ofList written))
  else .ok (if signed then .relative (first = '-') number else .number number)

/-- Reads what a back-reference names, given what follows the opening bracket: the name, and the level
of calls that a sign and a number after it ask for. -/
def readReferenceName (close : Char) : List Char → Except Error (Named × Option Int × Nat)
  | [] => .error .emptyName
  | first :: rest =>
    if first = close then .error .emptyName
    else
      let chars := first :: rest
      let scan := (NameScan.start first chars.length).run close rest
      let written := chars.take scan.length
      match scan.fault with
      | some fault => .error (fault (String.ofList written))
      | none => do
        let (level, width) ← scan.readLevel close chars
        return (← Named.ofWritten scan.numeric first written, level, width)

end ScopeLexer.Regex

import ScopeLexer.Regex.Error
import ScopeLexer.Regex.CharSet

/-!
Escapes that stand for a character or a class, shared by patterns and by classes in them. Each reader
takes the characters after the backslash and gives, with what it read, how many of them it took.
-/
namespace ScopeLexer.Regex

/-- The class that a letter after a backslash names, and whether its complement is meant. -/
def escapedClass? : Char → Option (NamedClass × Bool)
  | 'w' => some (.word, false)
  | 'W' => some (.word, true)
  | 'd' => some (.digit, false)
  | 'D' => some (.digit, true)
  | 's' => some (.space, false)
  | 'S' => some (.space, true)
  | 'h' => some (.hexDigit, false)
  | 'H' => some (.hexDigit, true)
  | _ => none

/-- The character that a letter after a backslash stands for, if that is another one. -/
def controlChar? : Char → Option Char
  | 't' => some '\t'
  | 'n' => some '\n'
  | 'r' => some '\r'
  | 'f' => some '\x0c'
  | 'v' => some '\x0b'
  | 'a' => some '\x07'
  | 'b' => some '\x08'
  | 'e' => some '\x1b'
  | _ => none

/-- The value of a digit of base sixteen. -/
def hexValue (c : Char) : Nat :=
  if c.isDigit then c.toNat - '0'.toNat
  else if 'a' ≤ c && c ≤ 'f' then c.toNat - 'a'.toNat + 10
  else c.toNat - 'A'.toNat + 10

/-- The number that some digits of base sixteen write. -/
def hexNumber (digits : List Char) : Nat :=
  digits.foldl (fun value c => value * 16 + hexValue c) 0

/-- Whether a character is a digit of base eight. -/
def isOctalDigit (c : Char) : Bool := '0' ≤ c && c ≤ '7'

/-- The number that some digits of base eight write. -/
def octalNumber (digits : List Char) : Nat :=
  digits.foldl (fun value c => value * 8 + (c.toNat - '0'.toNat)) 0

/-- The number that some decimal digits write. -/
def decimalNumber (digits : List Char) : Nat :=
  digits.foldl (fun value c => value * 10 + (c.toNat - '0'.toNat)) 0

inductive EscapedCode where
  /-- A code point, which need not be a character's. -/
  | point (code : Nat)
  /-- A byte that is no character and starts none. -/
  | byte (value : Nat)
  deriving Repr, DecidableEq, Inhabited

/-- How many bytes the character has whose first byte is given. -/
def byteCount (lead : Nat) : Nat :=
  if lead < 0xc0 then 1 else if lead < 0xe0 then 2 else if lead < 0xf0 then 3
  else if lead < 0xf8 then 4 else 1

/-- A byte written as `\xHH` or in base eight, given what follows the backslash, and how many
characters it takes. Of three digits of base eight the low eight bits count. -/
def readByte? : List Char → Option (Nat × Nat)
  | 'x' :: '\x7b' :: _ => none
  | 'x' :: [] => none
  | 'x' :: rest =>
    let digits := (rest.take 2).takeWhile isHexDigit
    some (hexNumber digits, digits.length + 1)
  | chars =>
    let digits := (chars.take 3).takeWhile isOctalDigit
    if digits.isEmpty then none else some (octalNumber digits % 0x100, digits.length)

/-- The bytes that follow the first one of a character, each with its backslash, and how many
characters they take. -/
def followingBytes : Nat → List Char → Except Error (List Nat × Nat)
  | 0, _ => .ok ([], 0)
  | count + 1, '\\' :: rest =>
    match readByte? rest with
    | some (byte, width) => do
      let (bytes, more) ← followingBytes count (rest.drop width)
      return (byte :: bytes, more + width + 1)
    | none => .error .shortBytes
  | _ + 1, _ => .error .shortBytes

/-- What several bytes stand for. Those that write a code point in more bytes than it needs are no
character. -/
def codeOfBytes (lead : Nat) (bytes : List Nat) : Except Error EscapedCode :=
  let (start, least) :=
    if bytes.length = 1 then (lead % 0x20, 0x80) else if bytes.length = 2 then (lead % 0x10, 0x800)
    else (lead % 0x08, 0x10000)
  let code := bytes.foldl (fun code byte => code * 0x40 + byte % 0x40) start
  if !bytes.all fun byte => 0x80 ≤ byte && byte < 0xc0 then .error .badCodePoint
  else if code < least || 0x10ffff < code then .ok (.byte lead)
  else .ok (.point code)

/-- What a byte of a pattern stands for, together with the bytes after it that belong to the same
character. -/
def readBytes (lead : Nat) (rest : List Char) : Except Error (EscapedCode × Nat) :=
  if lead < 0x80 then .ok (.point lead, 0)
  else if byteCount lead = 1 then .ok (.byte lead, 0)
  else do
    let (bytes, width) ← followingBytes (byteCount lead - 1) rest
    return (← codeOfBytes lead bytes, width)

/-- Whether a character divides the code points that stand in one pair of braces. -/
def dividesCodes (c : Char) : Bool := c = ' ' || c = '\n'

/-- The code points that follow the first one in braces, and how many characters they take with the
closing brace. Each stands after a blank. -/
def readMoreCodes (isDigit : Char → Bool) (number : List Char → Nat) (longest : Nat) :
    Nat → List Char → Except Error (List Nat × Nat)
  | 0, _ => .error .badCodePoint
  | fuel + 1, chars =>
    let blanks := (chars.takeWhile dividesCodes).length
    let inner := chars.drop blanks
    let digits := (inner.take longest).takeWhile isDigit
    let after := inner.drop digits.length
    if blanks = 0 || digits.isEmpty then .error .badCodePoint
    else if 0x100000000 ≤ number digits then .error .numberTooLarge
    else if after.head?.any isDigit then .error .codePointTooLong
    else
      let gap := (after.takeWhile dividesCodes).length
      if after[gap]? = some '\x7d' then .ok ([number digits], blanks + digits.length + gap + 1)
      else do
        let (codes, width) ← readMoreCodes isDigit number longest fuel after
        return (number digits :: codes, blanks + digits.length + width)

/-- The code points in braces, given what follows the opening one. Without digits the braces stand for
themselves. -/
def readBraced (isDigit : Char → Bool) (number : List Char → Nat) (longest : Nat)
    (inner : List Char) : Except Error (Option (List EscapedCode × Nat)) :=
  let digits := (inner.take longest).takeWhile isDigit
  let after := inner.drop digits.length
  if 0x100000000 ≤ number digits then .error .numberTooLarge
  else if after.head?.any isDigit then .error .codePointTooLong
  else if digits.isEmpty then .ok none
  else if after.head? = some '\x7d' then .ok (some ([.point (number digits)], digits.length + 2))
  else do
    let (codes, width) ← readMoreCodes isDigit number longest after.length after
    return some ((number digits :: codes).map .point, digits.length + 1 + width)

/-- Reads an escape for a control character, a character with the high bit set or one that stands for
itself, given what follows the backslash. -/
def readControl : List Char → Except Error (Nat × Nat)
  | [] => .error .endAtEscape
  | ['M'] | ['M', '-'] => .error .endAtMeta
  | 'M' :: '-' :: '\\' :: inner => do
    let (value, width) ← readControl inner
    return (value % 0x80 + 0x80, width + 3)
  | 'M' :: '-' :: c :: _ => .ok (c.toNat % 0x80 + 0x80, 3)
  | 'M' :: _ => .error .badMeta
  | ['C'] | ['C', '-'] => .error .endAtControl
  | 'C' :: '-' :: '\\' :: inner => do
    let (value, width) ← readControl inner
    return (value &&& 0x9f, width + 3)
  | 'C' :: '-' :: c :: _ => .ok (if c = '?' then 0x7f else c.toNat &&& 0x9f, 3)
  | 'C' :: _ => .error .badControl
  | ['c'] => .error .endAtControl
  | 'c' :: '\\' :: inner => do
    let (value, width) ← readControl inner
    return (value &&& 0x9f, width + 2)
  | 'c' :: c :: _ => .ok (if c = '?' then 0x7f else c.toNat &&& 0x9f, 2)
  | c :: _ => .ok (((controlChar? c).getD c).toNat, 1)

/-- Reads the code points in braces after a letter. The letter stands for itself if the braces hold
none. -/
def readCodesIn (letter : Char) (isDigit : Char → Bool) (number : List Char → Nat) (longest : Nat)
    (inner : List Char) : Except Error (List EscapedCode × Nat) := do
  match ← readBraced isDigit number longest inner with
  | some (codes, width) => return (codes, width + 1)
  | none => return ([.point letter.toNat], 1)

/-- Reads a code point in four digits of base sixteen, given what follows the letter before them. At the
end of the pattern the letter stands for itself. -/
def readFourDigits (rest : List Char) : Except Error (List EscapedCode × Nat) :=
  let digits := (rest.take 4).takeWhile isHexDigit
  if rest.isEmpty then .ok ([.point 'u'.toNat], 1)
  else if digits.length = 4 then .ok ([.point (hexNumber digits)], 5)
  else .error .badCodePoint

/-- Reads an escape for a character written as bytes or as a control character. Anything without a
meaning of its own stands for itself. -/
def readCode (chars : List Char) : Except Error (EscapedCode × Nat) :=
  match readByte? chars with
  | some (byte, width) => do
    let (code, more) ← readBytes byte (chars.drop width)
    return (code, width + more)
  | none => do
    let (code, width) ← readControl chars
    return (.point code, width)

/-- Reads an escape that stands for characters, given what follows the backslash: one, or several that
stand in one pair of braces. -/
def readEscapedCodes : List Char → Except Error (List EscapedCode × Nat)
  | [] => .error .endAtEscape
  | c :: rest =>
    let braced := rest.head? = some '\x7b'
    if c = 'x' && braced then readCodesIn c isHexDigit hexNumber 8 rest.tail
    else if c = 'o' && braced then readCodesIn c isOctalDigit octalNumber 11 rest.tail
    else if c = 'u' then readFourDigits rest
    else do
      let (code, width) ← readCode (c :: rest)
      return ([code], width)

end ScopeLexer.Regex

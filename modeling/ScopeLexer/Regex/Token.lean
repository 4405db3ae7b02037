import ScopeLexer.Regex.ClassReader
import ScopeLexer.Regex.Folding
import ScopeLexer.Regex.Callout
import ScopeLexer.Regex.Name

/-!
The tokens of a pattern. `readToken` reads one token and says how many characters it takes, so that a
reader of the whole pattern can go on behind it. Which token the text holds depends on the options in
force and on the groups opened so far: blanks count for nothing under `x`, and a number after a
backslash is a back-reference or a code point.
-/
namespace ScopeLexer.Regex

/-- What an opening parenthesis opens. -/
inductive GroupKind where
  | capture (name : Option String)
  | plain
  /-- A group with options of its own. -/
  | scoped
  | atomic
  | lookAhead (negated : Bool)
  | lookBehind (negated : Bool)
  /-- The test of a conditional. -/
  | test
  /-- The branches of a conditional after its test, or only the one for when it fails. -/
  | branches (test : Expr) (onlyNo : Bool)
  deriving Repr, Inhabited

/-- How a repetition chooses between more and fewer rounds. -/
inductive Greed where
  /-- As many rounds as possible first. -/
  | greedy
  /-- As few rounds as possible first. -/
  | reluctant
  /-- As many rounds as possible, and never fewer. -/
  | possessive
  deriving Repr, DecidableEq, Inhabited

inductive Token where
  /-- A character that stands for itself. -/
  | char (c : Char)
  /-- Expressions that need no further reading, one after the other. -/
  | items (exprs : List Expr)
  /-- A group opens, with the options that hold in it. -/
  | openGroup (kind : GroupKind) (options : Options)
  /-- The options change up to the end of the enclosing group. -/
  | setOptions (options : Options)
  | closeGroup
  | bar
  | repetition (least : Nat) (most : Option Nat) (greed : Greed)
  /-- Comments, and blanks where they do not count. -/
  | nothing
  deriving Repr, Inhabited

/-- What is known of the groups when a token is read: how many were opened, their names, and which of
them are still open, the innermost first. -/
structure Groups where
  count : Nat := 0
  names : List (String × Nat) := []
  opened : List Nat := []
  deriving Repr, Inhabited

/-- What a token depends on. -/
structure Surroundings where
  options : Options := {}
  groups : Groups := {}
  /-- How many classes may be nested. -/
  room : Nat := 0
  deriving Repr, Inhabited

/-- The largest bound that a repetition may have. -/
def largestBound : Nat := 100000

/-- The greed that a mark after a repetition asks for, and how many characters the mark takes. -/
def readGreed (mayBePossessive : Bool) : List Char → Greed × Nat
  | '?' :: _ => (.reluctant, 1)
  | '+' :: _ => if mayBePossessive then (.possessive, 1) else (.greedy, 0)
  | _ => (.greedy, 0)

/-- A bound in braces, given what follows the opening brace: the least number, the largest one, and
how many characters it takes. Braces that hold no bound give nothing. A number alone is written
`exact`. -/
structure Bound where
  least : Nat
  most : Option Nat
  exact : Bool
  width : Nat

/-- Reads a bound, given what follows the opening brace. -/
def readBound (rest : List Char) : Except Error (Option Bound) :=
  let low := rest.takeWhile Char.isDigit
  let afterLow := rest.drop low.length
  if largestBound < decimalNumber low then .error .repeatTooLarge
  else
    match afterLow with
    | ',' :: inner =>
      let high := inner.takeWhile Char.isDigit
      if largestBound < decimalNumber high then .error .repeatTooLarge
      else if low.isEmpty && high.isEmpty then .ok none
      else if inner[high.length]? = some '\x7d' then
        .ok (some {
          least := decimalNumber low
          most := if high.isEmpty then none else some (decimalNumber high)
          exact := false
          width := low.length + high.length + 2 })
      else .ok none
    | '\x7d' :: _ =>
      if low.isEmpty then .ok none
      else .ok (some {
        least := decimalNumber low, most := some (decimalNumber low), exact := true
        width := low.length + 1 })
    | _ => .ok none

/-- The token of a bound: the bounds the wrong way round make the repetition possessive, and an exact
number takes no mark. -/
def Bound.token (bound : Bound) (rest : List Char) : Token × Nat :=
  match bound.most with
  | some most =>
    if most < bound.least then (.repetition most (some bound.least) .possessive, bound.width)
    else if bound.exact then (.repetition bound.least (some most) .greedy, bound.width)
    else
      let (greed, width) := readGreed false (rest.drop bound.width)
      (.repetition bound.least (some most) greed, bound.width + width)
  | none =>
    let (greed, width) := readGreed false (rest.drop bound.width)
    (.repetition bound.least none greed, bound.width + width)

/-- The length of a comment up to its closing parenthesis, given what follows `(?#`. -/
def commentWidth : List Char → Except Error Nat
  | [] => .error .endInGroup
  | ')' :: _ => .ok 1
  | '\\' :: _ :: rest => do return (← commentWidth rest) + 2
  | _ :: rest => do return (← commentWidth rest) + 1

/-- Whether a text is the start of a segmentation in braces and ends there. -/
def cutSegmentation : List Char → Bool
  | [] | ['\x7b'] | ['\x7b', 'g'] | ['\x7b', 'w'] => true
  | _ => false

/-- Reads option letters up to a colon or a closing parenthesis. `off` says whether a minus has
been read. A segmentation, which is written in braces, changes nothing here. -/
def readOptions (options : Options) (off : Bool) : List Char → Except Error (Token × Nat)
  | [] => .error .endInGroup
  | ')' :: _ => .ok (.setOptions options, 1)
  | ':' :: _ => .ok (.openGroup .scoped options, 1)
  | '-' :: rest => do
    let (token, width) ← readOptions options true rest
    return (token, width + 1)
  | 'y' :: '\x7b' :: kind :: '\x7d' :: rest => do
    if off || (kind ≠ 'g' && kind ≠ 'w') then throw .unknownOption
    let (token, width) ← readOptions options off rest
    return (token, width + 4)
  | 'y' :: rest => .error (if !off && cutSegmentation rest then .endInGroup else .unknownOption)
  | c :: rest => do
    let some options := options.switch? off c | throw .unknownOption
    let (token, width) ← readOptions options off rest
    return (token, width + 1)

/-- The reference to the groups that a name stands for. -/
def Groups.resolve (groups : Groups) (named : Named) (level : Option Int) :
    Except Error Reference := do
  let indices ← match named with
    | .name text =>
      match (groups.names.filter (·.1 = text)).map Prod.snd with
      | [] => throw (.unknownName text)
      | indices => pure indices
    | .number index => if index = 0 then throw .unknownGroup else pure [index]
    | .relative back distance =>
      if back then
        if groups.count < distance then throw .unknownGroup
        else pure [groups.count + 1 - distance]
      else pure [groups.count + distance]
  return { groups := indices, fromInside := indices.any groups.opened.contains, level }

/-- What follows the test of a conditional, given the text after it: the conditional is only the test,
or its branches start. Gives also how many characters that takes. -/
def readAfterTest (options : Options) (test : Expr) (standsAlone : Bool) :
    List Char → Except Error (Token × Nat)
  | [] => .error .endInGroup
  | ')' :: _ => if standsAlone then .ok (.items [test], 1) else .error .badConditional
  | '|' :: _ => .ok (.openGroup (.branches test true) options, 1)
  | _ => .ok (.openGroup (.branches test false) options, 0)

/-- The closing bracket of a name that a conditional asks for, given its opening one. -/
def askedBracket? (first : Char) : Option Char :=
  if first = '<' then some '>' else if first = '\'' then some '\'' else none

/-- Reads what a conditional asks unless it is a pattern, given what follows `(?(`: whether a group is
filled, by a number or by a name in brackets, or a callout. Gives the test, whether it may stand without
branches, and how many characters it takes. -/
def readAsked (groups : Groups) (chars : List Char) : Except Error (Option (Expr × Bool × Nat)) :=
  match chars with
  | [] | [_] => .error .endInGroup
  | first :: second :: more =>
    let rest := second :: more
    match askedBracket? first with
    | some close => do
      let (named, level, width) ← readReferenceName close rest
      let reference ← groups.resolve named level
      if rest[width]? = some ')' then .ok (some (.filled reference, true, width + 2))
      else .error .endInGroup
    | none =>
      if first.isDigit || first = '-' || first = '+' then
        match readReferenceName ')' chars with
        | .error _ => .ok none
        | .ok (named, level, width) => do
          let reference ← groups.resolve named level
          return some (.filled reference, true, width)
      else if first = '?' && second = '\x7b' then do
        let (verb, width) ← readContentsCallout more
        return some (.verb verb, false, width + 2)
      else if first = '*' then do
        let (verb, width) ← readNamedCallout rest
        return some (.verb verb, false, width + 1)
      else .ok none

/-- Reads the test of a conditional, given what follows `(?(`. What asks for no group and no callout is a
pattern. -/
def readTest (surroundings : Surroundings) (chars : List Char) : Except Error (Token × Nat) := do
  match ← readAsked surroundings.groups chars with
  | none => return (.openGroup .test surroundings.options, 0)
  | some (test, standsAlone, width) =>
    let (token, more) ←
      readAfterTest surroundings.options test standsAlone (chars.drop width)
    return (token, width + more)

/-- Reads what an opening parenthesis opens, given what follows it. -/
def readGroup (surroundings : Surroundings) : List Char → Except Error (Token × Nat)
  | '?' :: rest =>
    let options := surroundings.options
    match rest with
    | [] => .error .endInGroup
    | '#' :: inner => do return (.nothing, (← commentWidth inner) + 2)
    | ':' :: _ => .ok (.openGroup .plain options, 2)
    | '=' :: _ => .ok (.openGroup (.lookAhead false) options, 2)
    | '!' :: _ => .ok (.openGroup (.lookAhead true) options, 2)
    | '>' :: _ => .ok (.openGroup .atomic options, 2)
    | '<' :: [] => .error .unclosedGroup
    | '<' :: '=' :: _ => .ok (.openGroup (.lookBehind false) options, 3)
    | '<' :: '!' :: _ => .ok (.openGroup (.lookBehind true) options, 3)
    | '<' :: inner => do
      let (name, width) ← readName '>' inner
      return (.openGroup (.capture (some name)) options, width + 2)
    | '\'' :: inner => do
      let (name, width) ← readName '\'' inner
      return (.openGroup (.capture (some name)) options, width + 2)
    | '\x7b' :: inner => do
      let (verb, width) ← readContentsCallout inner
      return (.items [.verb verb], width + 2)
    | '(' :: inner => do
      let (token, width) ← readTest surroundings inner
      return (token, width + 2)
    | c :: _ =>
      if c = '-' || c = 'y' || (options.switch? false c).isSome then do
        let (token, width) ← readOptions options false rest
        return (token, width + 1)
      else .error .unknownOption
  | '*' :: rest => do
    let (verb, width) ← readNamedCallout rest
    return (.items [.verb verb], width + 1)
  | [] => .error .unclosedGroup
  | _ => .ok (.openGroup (.capture none) surroundings.options, 0)

/-- What an escape stands for outside a class. A code point that no character has, and a byte that
starts none, are never found; a byte that only goes on with a character is refused. -/
def Options.escaped (options : Options) : EscapedCode → Except Error Expr
  | .point code =>
    if 0x10ffff < code then .error .codePointTooLarge
    else if code.isValidChar then .ok (.text [Char.ofNat code] options.ignoreCase)
    else .ok .never
  | .byte value => if value < 0xc0 then .error .badCodePoint else .ok .never

/-- The closing bracket of a name, given what follows the letter before it. -/
def closingBracket? : List Char → Option Char
  | '<' :: _ => some '>'
  | '\'' :: _ => some '\''
  | _ => none

/-- Reads a back-reference by name or number, given what follows `\k`. Without a bracket the letter
stands for itself. -/
def readReference (surroundings : Surroundings) (rest : List Char) : Except Error (Token × Nat) :=
  match closingBracket? rest with
  | none => .ok (.char 'k', 0)
  | some close => do
    let (named, level, width) ← readReferenceName close (rest.drop 1)
    let reference ← surroundings.groups.resolve named level
    return (.items [.backref reference surroundings.options.ignoreCase], width + 1)

/-- The call of what is named, given what the pattern calls it. -/
def Groups.callee (groups : Groups) (named : Named) (written : String) : Except Error Callee :=
  match named with
  | .name text => .ok ⟨0, text, true, false⟩
  | .number index => .ok ⟨index, written, false, false⟩
  | .relative back distance =>
    if back then
      if groups.count + 1 < distance then .error (.unknownCallee written)
      else .ok ⟨groups.count + 1 - distance, written, false, false⟩
    else .ok ⟨groups.count + distance, written, false, false⟩

/-- Reads a call of a group, given what follows `\g`. Without a bracket the letter stands for itself.
Which group it is comes out once all of the pattern has been read. -/
def readCall (groups : Groups) (rest : List Char) : Except Error (Token × Nat) :=
  match closingBracket? rest with
  | none => .ok (.char 'g', 0)
  | some close => do
    let (named, width) ← readCallee close (rest.drop 1)
    let callee ← groups.callee named (String.ofList ((rest.drop 1).take (width - 1)))
    return (.items [.call callee], width + 1)

/-- The largest number that a back-reference written without a name may have. -/
def largestReference : Nat := 1000

/-- Reads a number after a backslash: a back-reference if it has one digit or so many groups have
been opened, else a byte in base eight. -/
def readNumbered (surroundings : Surroundings) (c : Char) (rest : List Char) :
    Except Error (Token × Nat) := do
  let digits := (c :: rest).takeWhile Char.isDigit
  let number := decimalNumber digits
  let groups := surroundings.groups
  if c ≠ '0' && number ≤ largestReference && (number ≤ 9 || number ≤ groups.count) then
    let reference ← groups.resolve (.number number) none
    return (.items [.backref reference surroundings.options.ignoreCase], digits.length - 1)
  else if c = '8' || c = '9' then return (.char c, 0)
  else
    let (codes, width) ← readEscapedCodes (c :: rest)
    return (.items (← codes.mapM surroundings.options.escaped), width - 1)

/-- The condition that a letter after a backslash stands for. -/
def Options.escapedAnchor? (options : Options) : Char → Option Anchor
  | 'A' => some .textStart
  | 'z' => some .textEnd
  | 'Z' => some .lastLineEnd
  | 'G' => some .searchStart
  | 'b' => some (.wordEdge (options.narrows .word))
  | 'B' => some (.notWordEdge (options.narrows .word))
  | _ => none

/-- Any line end: a carriage return with its line feed, which are not divided, or one character. -/
def lineBreak : Expr :=
  .atomic (.choice [.text ['\r', '\n'] false,
    .oneOf (.union (.range 0xa 0xd) (.union (.range 0x85 0x85) (.range 0x2028 0x2029))) false])

/-- The expression that a letter after a backslash stands for. -/
def Options.escapedExpr? (options : Options) : Char → Option Expr
  | 'K' => some (.verb .keep)
  | 'R' => some lineBreak
  | 'N' => some (.any false)
  | 'O' => some (.any true)
  | 'w' => some (.word false (options.narrows .word))
  | 'W' => some (.word true (options.narrows .word))
  | c =>
    match escapedClass? c, options.escapedAnchor? c with
    | some (name, negated), _ => some (.oneOf (options.classSet name) negated)
    | none, some anchor => some (.anchor anchor)
    | none, none => none

/-- The expression of a property. -/
def Options.propertyExpr (options : Options) (property : WrittenProperty) : Except Error Expr :=
  match options.property? property.name with
  | some set =>
    if set = options.classSet .word then .ok (.word property.negated (options.narrows .word))
    else .ok (.oneOf set property.negated)
  | none => .error (.unknownProperty property.name)

/-- Reads an escape, given what follows the backslash. A character that an escape does not change
stands for itself like any other. -/
def readEscape (surroundings : Surroundings) : List Char → Except Error (Token × Nat)
  | [] => .error .endAtEscape
  | c :: rest =>
    match surroundings.options.escapedExpr? c with
    | some expr => .ok (.items [expr], 1)
    | none =>
      if c = 'k' then do
        let (token, width) ← readReference surroundings rest
        return (token, width + 1)
      else if c = 'g' then do
        let (token, width) ← readCall surroundings.groups rest
        return (token, width + 1)
      else if c.isDigit then do
        let (token, width) ← readNumbered surroundings c rest
        return (token, width + 1)
      else do
        match ← readProperty c rest with
        | some property =>
          return (.items [← surroundings.options.propertyExpr property], property.width + 1)
        | none =>
          let (codes, width) ← readEscapedCodes (c :: rest)
          if codes = [.point c.toNat] && width = 1 then return (.char c, 1)
          else return (.items (← codes.mapM surroundings.options.escaped), width)

/-- Reads a token that starts with `c`. Gives it with the number of characters it takes of `rest`. -/
def readToken (surroundings : Surroundings) (c : Char) (rest : List Char) :
    Except Error (Token × Nat) :=
  let options := surroundings.options
  let repetition (least : Nat) (most : Option Nat) : Token × Nat :=
    let (greed, width) := readGreed true rest
    (.repetition least most greed, width)
  match c with
  | '\\' => readEscape surroundings rest
  | '.' => .ok (.items [.any options.dotAll], 0)
  | '*' => .ok (repetition 0 none)
  | '+' => .ok (repetition 1 none)
  | '?' => .ok (repetition 0 (some 1))
  | '\x7b' => do
    match ← readBound rest with
    | some bound => return bound.token rest
    | none => return (.char c, 0)
  | '|' => .ok (.bar, 0)
  | '(' => readGroup surroundings rest
  | ')' => .ok (.closeGroup, 0)
  | '^' => .ok (.items [.anchor .lineStart], 0)
  | '$' => .ok (.items [.anchor .lineEnd], 0)
  | '[' => do
    let (set, negated, width) ← readClass options surroundings.room rest
    return (.items [if options.ignoreCase then set.inAnyCase negated else .oneOf set negated], width)
  | _ =>
    if options.extended && c = '#' then
      .ok (.nothing, (rest.takeWhile (· ≠ '\n')).length + 1)
    else if options.extended && " \t\n\r\x0c".toList.contains c then .ok (.nothing, 0)
    else .ok (.char c, 0)

end ScopeLexer.Regex

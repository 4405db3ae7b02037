/-!
Why a pattern is refused. The wording of every refusal is here.
-/
namespace ScopeLexer.Regex

/-- The first thing wrong with a pattern, reading from the left. -/
inductive Error where
  /-- A group is still open at the end. -/
  | unclosedGroup
  /-- A closing parenthesis closes nothing. -/
  | strayClose
  /-- A repetition follows nothing that could be repeated. -/
  | nothingToRepeat
  /-- What a repetition follows takes no characters and cannot be repeated. -/
  | unrepeatable
  /-- A bound of a repetition is too large. -/
  | repeatTooLarge
  /-- A class is still open at the end. -/
  | unclosedClass
  /-- A class has no members. -/
  | emptyClass
  /-- The end of a range comes before its start. -/
  | emptyRange
  /-- A range starts with a class. -/
  | classStartsRange
  /-- A range ends with a class. -/
  | classEndsRange
  /-- No class has the name between `[:` and `:]`. -/
  | unknownClass
  /-- A backslash is the last character. -/
  | endAtEscape
  /-- The pattern ends inside what opens a group. -/
  | endInGroup
  /-- No such kind of group or option exists. -/
  | unknownOption
  /-- A back-reference has a number that no group has. -/
  | unknownGroup
  /-- A back-reference has a name that no group has. -/
  | unknownName (name : String)
  /-- A group has an empty name. -/
  | emptyName
  /-- A group has a name that cannot be one. -/
  | badName (name : String)
  /-- A group has a name with a character that names do not have. -/
  | badNameChar (name : String)
  /-- Escaped bytes stop inside a character. -/
  | shortBytes
  /-- A code point is not written out, or escaped bytes make no character. -/
  | badCodePoint
  /-- A code point is larger than any character's. -/
  | codePointTooLarge
  /-- A code point has too many digits. -/
  | codePointTooLong
  /-- A byte or the number of a group is too large. -/
  | numberTooLarge
  /-- The pattern ends inside a control character. -/
  | endAtControl
  /-- A control character lacks its hyphen. -/
  | badControl
  /-- The pattern ends inside a character with the high bit set. -/
  | endAtMeta
  /-- A character with the high bit set lacks its hyphen. -/
  | badMeta
  /-- A look-behind holds something that cannot be looked for backwards. -/
  | badLookBehind
  /-- A callout is not closed, or goes on after its arguments. -/
  | badCallout
  /-- A callout has a name that cannot be one. -/
  | badCalloutName
  /-- No callout has the name. -/
  | unknownCallout
  /-- A callout lacks an argument, or has one too many. -/
  | badCalloutArgument
  /-- A callout has a tag that cannot be one. -/
  | badCalloutTag
  /-- Groups, classes or repetitions are nested too deeply. -/
  | tooDeep
  /-- A conditional has no branches. -/
  | badConditional
  /-- A call has a number that no group has. -/
  | unknownCallee (name : String)
  /-- A call has a name that several groups have. -/
  | sharedName (name : String)
  /-- A group calls itself whichever way it is matched, or before it has taken anything. -/
  | endlessRecursion
  /-- No character property has the name. -/
  | unknownProperty (name : String)
  /-- A look-behind has nothing left once the rounds at its start that need not be there are gone. -/
  | emptiedLookBehind
  deriving Repr, DecidableEq, Inhabited

/-- The most bytes of a name that a message quotes. -/
def longestQuote : Nat := 30

/-- A name as a message quotes it: cut where it gets too long, if a character ends there. -/
def quoteName (name : String) : Option String :=
  if name.utf8ByteSize ≤ longestQuote then some name
  else
    let cut := fitting longestQuote name.toList
    if (String.ofList cut).utf8ByteSize = longestQuote then some (String.ofList cut ++ "...")
    else none
where
  /-- The characters at the start of a text that fit into so many bytes. -/
  fitting (room : Nat) : List Char → List Char
    | [] => []
    | c :: rest => if c.utf8Size ≤ room then c :: fitting (room - c.utf8Size) rest else []

/-- The name that a refusal quotes, with the words before and after it, or else all of its words. -/
def Error.words : Error → String × Option (String × String)
  | .unclosedGroup => ("end pattern with unmatched parenthesis", none)
  | .strayClose => ("unmatched close parenthesis", none)
  | .nothingToRepeat => ("target of repeat operator is not specified", none)
  | .unrepeatable => ("target of repeat operator is invalid", none)
  | .repeatTooLarge => ("too big number for repeat range", none)
  | .unclosedClass => ("premature end of char-class", none)
  | .emptyClass => ("empty char-class", none)
  | .emptyRange => ("empty range in char class", none)
  | .classStartsRange => ("unmatched range specifier in char-class", none)
  | .classEndsRange => ("char-class value at end of range", none)
  | .unknownClass => ("invalid POSIX bracket type", none)
  | .endAtEscape => ("end pattern at escape", none)
  | .endInGroup => ("end pattern in group", none)
  | .unknownOption => ("undefined group option", none)
  | .unknownGroup => ("invalid backref number/name", none)
  | .unknownName name => ("undefined name <", some (name, "> reference"))
  | .emptyName => ("group name is empty", none)
  | .badName name => ("invalid group name <", some (name, ">"))
  | .badNameChar name => ("invalid char in group name <", some (name, ">"))
  | .shortBytes => ("too short multibyte code string", none)
  | .badCodePoint => ("invalid code point value", none)
  | .codePointTooLarge => ("too big wide-char value", none)
  | .codePointTooLong => ("too long wide-char value", none)
  | .numberTooLarge => ("too big number", none)
  | .endAtControl => ("end pattern at control", none)
  | .badControl => ("invalid control-code syntax", none)
  | .endAtMeta => ("end pattern at meta", none)
  | .badMeta => ("invalid meta-code syntax", none)
  | .badLookBehind => ("invalid pattern in look-behind", none)
  | .badCallout => ("invalid callout pattern", none)
  | .badCalloutName => ("invalid callout name", none)
  | .unknownCallout => ("undefined callout name", none)
  | .badCalloutArgument => ("invalid callout arg", none)
  | .badCalloutTag => ("invalid callout tag name", none)
  | .tooDeep => ("parse depth limit over", none)
  | .badConditional => ("invalid if-else syntax", none)
  | .unknownCallee name => ("undefined group <", some (name, "> reference"))
  | .sharedName name => ("multiplex definition name <", some (name, "> call"))
  | .endlessRecursion => ("never ending recursion", none)
  | .unknownProperty name => ("invalid character property name \x7b", some (name, "\x7d"))
  | .emptiedLookBehind => ("undefined error code", none)

def Error.message (error : Error) : String :=
  match error.words with
  | (words, none) => "Oniguruma error: " ++ words
  | (before, some (name, after)) =>
    match quoteName name with
    | some quoted => "Oniguruma error: " ++ before ++ quoted ++ after
    | none => "Onig error string was invalid UTF-8"

end ScopeLexer.Regex

import ScopeLexer.Regex.Error
import ScopeLexer.Regex.Options

/-!
Properties of characters by name, as `\p` writes them: the classes that brackets can name, the general
categories, and scripts. Case, blanks, hyphens and underscores in a name do not count.
-/
namespace ScopeLexer.Regex

/-- The names that may stand between `[:` and `:]`. -/
def posixClasses : List (String × NamedClass) := [
  ("alnum", .alnum), ("alpha", .alpha), ("blank", .blank), ("cntrl", .control), ("digit", .digit),
  ("graph", .visible), ("lower", .lower), ("print", .printable), ("punct", .punct),
  ("space", .space), ("upper", .upper), ("xdigit", .hexDigit), ("ascii", .ascii), ("word", .word)]

/-- The general categories by their two letters and by their names. -/
def categoryNames : List (String × String × Text.Category) := [
  ("lu", "uppercaseletter", .capitalLetter), ("ll", "lowercaseletter", .smallLetter),
  ("lt", "titlecaseletter", .titleLetter), ("lm", "modifierletter", .modifierLetter),
  ("lo", "otherletter", .otherLetter), ("mn", "nonspacingmark", .plainMark),
  ("mc", "spacingmark", .spacingMark), ("me", "enclosingmark", .enclosingMark),
  ("nd", "decimalnumber", .decimalDigit), ("nl", "letternumber", .numeralLetter),
  ("no", "othernumber", .otherNumber), ("pc", "connectorpunctuation", .connector),
  ("pd", "dashpunctuation", .dash), ("ps", "openpunctuation", .opening),
  ("pe", "closepunctuation", .closing), ("pi", "initialpunctuation", .initialQuote),
  ("pf", "finalpunctuation", .finalQuote), ("po", "otherpunctuation", .otherPunctuation),
  ("sm", "mathsymbol", .math), ("sc", "currencysymbol", .currency),
  ("sk", "modifiersymbol", .modifierSymbol), ("so", "othersymbol", .otherSymbol),
  ("zs", "spaceseparator", .space), ("zl", "lineseparator", .lineSeparator),
  ("zp", "paragraphseparator", .paragraphSeparator), ("cc", "control", .control),
  ("cf", "format", .format), ("co", "privateuse", .privateUse), ("cn", "unassigned", .unassigned)]

/-- The groups of categories that have a name: all whose two letters start with the same one. -/
def categoryGroups : List (String × List String) := [
  ("l", ["letter"]), ("m", ["mark", "combiningmark"]), ("n", ["number"]),
  ("p", ["punctuation", "punct"]), ("s", ["symbol"]), ("z", ["separator"]), ("c", ["other"])]

def scriptNames : List (String × Text.Script) := [
  ("latin", .latin), ("latn", .latin), ("greek", .greek), ("grek", .greek), ("cyrillic", .cyrillic),
  ("cyrl", .cyrillic), ("hebrew", .hebrew), ("hebr", .hebrew), ("arabic", .arabic),
  ("arab", .arabic), ("thai", .thai), ("hangul", .hangul), ("hang", .hangul),
  ("hiragana", .hiragana), ("hira", .hiragana), ("katakana", .katakana), ("kana", .katakana),
  ("han", .han), ("hani", .han)]

/-- The characters of the categories whose two letters satisfy `holds`. -/
def categorySet (holds : String → Bool) : CharSet :=
  ((categoryNames.filter (holds ·.1)).map fun entry => CharSet.named (.category entry.2.2)).foldr
    .union .empty

/-- The characters of a general category or of a group of them. -/
def categoryByName? (name : String) : Option CharSet :=
  match categoryNames.find? fun entry => entry.1 = name || entry.2.1 = name with
  | some (_, _, category) => some (.named (.category category))
  | none =>
    match categoryGroups.find? fun entry => entry.1 = name || entry.2.contains name with
    | some (letter, _) => some (categorySet (·.startsWith letter))
    | none =>
      if name = "lc" || name = "casedletter" then some (categorySet ["lu", "ll", "lt"].contains)
      else if name = "cs" || name = "surrogate" then some .empty
      else none

/-- The class that a property is if it goes by another name than in brackets. -/
def otherClassName? : String → Option NamedClass
  | "alphabetic" => some .alpha
  | "uppercase" => some .upper
  | "lowercase" => some .lower
  | "whitespace" => some .space
  | "posixpunct" => some .punct
  | "punct" => none
  | name => posixClasses.lookup name

/-- The characters that have a property. -/
def Options.property? (options : Options) (written : String) : Option CharSet :=
  let chars := written.toList.filter fun c => c ≠ ' ' && c ≠ '-' && c ≠ '_'
  let name := String.ofList (chars.map Char.toLower)
  match otherClassName? name with
  | some found => some (options.classSet found)
  | none =>
    if name = "any" then some (.complement .empty)
    else if name = "assigned" then some (.complement (.named (.category .unassigned)))
    else
      (categoryByName? name).orElse fun _ =>
        (scriptNames.lookup name).map fun script => .named (.script script)

/-- A property as it is written: its name, whether it is negated, and how many characters that takes. -/
structure WrittenProperty where
  name : String
  negated : Bool
  width : Nat

def propertyName (body : List Char) : Except Error (List Char) :=
  let name := body.takeWhile fun c => !("\x7d()\x7b|".toList.contains c)
  match body[name.length]? with
  | some c => if c = '\x7d' then .ok name else .error (.unknownProperty (String.ofList name))
  | none => .error (.unknownProperty (String.ofList name.dropLast))

/-- Reads a property, given the letter of its escape and what follows it. Without a brace there is
none. -/
def readProperty (letter : Char) (rest : List Char) : Except Error (Option WrittenProperty) :=
  match rest with
  | '\x7b' :: inner =>
    if letter ≠ 'p' && letter ≠ 'P' then .ok none
    else do
      let caret := inner.head? = some '^'
      let marks := if caret then 1 else 0
      let name ← propertyName (inner.drop marks)
      return some {
        name := String.ofList name
        negated := (letter = 'P') != caret
        width := name.length + 2 + marks }
  | _ => .ok none

end ScopeLexer.Regex

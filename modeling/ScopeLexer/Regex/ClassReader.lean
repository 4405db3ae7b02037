import ScopeLexer.Regex.Escape
import ScopeLexer.Regex.Property

/-!
Reading a class such as `[a-z&&[^aeiou]]`. The reader passes over the characters once and keeps a
stack of the classes that are open. A hyphen between two characters makes a range; anywhere else it
stands for itself. A closing bracket right after the opening one stands for itself if another one
follows.
-/
namespace ScopeLexer.Regex

/-- What the last item of a class was: it decides what a hyphen means. -/
inductive LastItem where
  /-- Nothing yet. -/
  | start
  /-- A code point that may yet start a range. A narrow one is written in one byte. -/
  | value (code : Nat) (narrow : Bool)
  /-- A named class. -/
  | named
  /-- A hyphen after a code point: a range waits for its end. -/
  | range (first : Nat) (narrow : Bool)
  /-- A finished range or a nested class. -/
  | complete
  deriving Repr, DecidableEq, Inhabited

/-- A class being read. -/
structure OpenClass where
  negated : Bool
  /-- The intersection of the operands before the last `&&`. -/
  before : Option CharSet := none
  /-- The members read since then. -/
  members : CharSet := .empty
  last : LastItem := .start
  deriving Repr, Inhabited

namespace OpenClass

/-- The class with more members. -/
def add (cls : OpenClass) (set : CharSet) : OpenClass :=
  { cls with members := .union cls.members set }

/-- The code points from `first` to `last`. Between narrow ones only single bytes count, and of these
only the first 128 are characters. -/
def span (first last : Nat) (narrow : Bool) : CharSet :=
  if narrow then .range first (min last 0x7f) else .range first last

/-- The class with a waiting code point put among the members. -/
def flush (cls : OpenClass) : OpenClass :=
  match cls.last with
  | .value code narrow => cls.add (span code code narrow)
  | _ => cls

/-- The class after a code point. Only the end of a range may be larger than any character's. -/
def pushCode (cls : OpenClass) (code : Nat) (narrow : Bool) : Except Error OpenClass :=
  match cls.last with
  | .range first firstNarrow =>
    if code < first then .error .emptyRange
    else .ok { cls.add (span first code (firstNarrow && narrow)) with last := .complete }
  | _ =>
    if 0x10ffff < code then .error .codePointTooLarge
    else .ok { cls.flush with last := .value code narrow }

def pushChar (cls : OpenClass) (c : Char) : Except Error OpenClass :=
  cls.pushCode c.toNat (c.val < 0x80)

def pushEscaped (cls : OpenClass) : EscapedCode → Except Error OpenClass
  | .point code => cls.pushCode code (code < 0x80)
  | .byte value => cls.pushCode value true

/-- The class after the escapes that stand in one pair of braces. -/
def pushAllEscaped (cls : OpenClass) (codes : List EscapedCode) : Except Error OpenClass :=
  codes.foldlM pushEscaped cls

def pushNamed (cls : OpenClass) (set : CharSet) : Except Error OpenClass :=
  match cls.last with
  | .range _ _ => .error .classEndsRange
  | _ => .ok { cls.flush.add set with last := .named }

def pushNested (cls : OpenClass) (set : CharSet) : OpenClass :=
  { cls.flush.add set with last := .complete }

/-- What is wrong with an escape at the start of a text, which is found before anything else. -/
def escapeFault? : List Char → Option Error
  | ['\\'] => some .endAtEscape
  | '\\' :: c :: rest =>
    if (escapedClass? c).isSome then none
    else
      match readEscapedCodes (c :: rest) with
      | .error fault => some fault
      | .ok _ => none
  | _ => none

/-- The class after a hyphen, given the characters that follow it. -/
def pushHyphen (cls : OpenClass) (rest : List Char) : Except Error OpenClass :=
  let standsForItself := rest.head? = some ']' || "&&".toList.isPrefixOf rest
  match cls.last with
  | .value code narrow =>
    if standsForItself then cls.pushChar '-' else .ok { cls with last := .range code narrow }
  | .named =>
    if standsForItself then cls.pushChar '-'
    else .error ((escapeFault? rest).getD .classStartsRange)
  | _ => cls.pushChar '-'

def pushAnd (cls : OpenClass) : OpenClass :=
  let operand := cls.flush.members
  { cls with
    before := some (cls.before.elim operand (.inter · operand))
    members := .empty
    last := .start }

/-- The members of the class, its negation left aside. -/
def base (cls : OpenClass) : CharSet :=
  let operand := cls.flush.members
  cls.before.elim operand (.inter · operand)

def set (cls : OpenClass) : CharSet :=
  if cls.negated then .complement cls.base else cls.base

end OpenClass

/-- The longest name that is looked at between `[:` and `:]`. -/
def longestClassName : Nat := 20

inductive BracketName where
  /-- The name of a class, perhaps negated, and how many characters it takes with its end. -/
  | known (name : NamedClass) (negated : Bool) (width : Nat)
  /-- No class has the name. -/
  | unknown
  /-- The bracket stands for itself, the name being too long. -/
  | literal
  /-- There is no name: the bracket opens a class. -/
  | absent

/-- Reads the name after `[:`, which has letters only. -/
def readBracketName (rest : List Char) : BracketName :=
  let negated := rest.head? = some '^'
  let marks := if negated then 1 else 0
  let name := (rest.drop marks).takeWhile isLetterChar
  if !":]".toList.isPrefixOf (rest.drop (marks + name.length)) then .absent
  else if name.isEmpty && !negated then .absent
  else
    match posixClasses.lookup (String.ofList name) with
    | some found => .known found negated (name.length + 2 + marks)
    | none =>
      if name.length ≤ longestClassName || posixClasses.any (·.1.toList.isPrefixOf name) then
        .unknown
      else .literal

/-- Opens a class, given what follows its bracket: whether it is negated, the class with a closing
bracket that stands for itself already in it, and how many characters that took. -/
def openClass (rest : List Char) : Except Error (OpenClass × Nat) :=
  let negated := rest.head? = some '^'
  let marks := if negated then 1 else 0
  let body := rest.drop marks
  if body.head? ≠ some ']' then .ok ({ negated }, marks)
  else if body.tail.contains ']' then
    .ok ({ negated, last := .value ']'.toNat true }, marks + 1)
  else .error .emptyClass

/-- The name of a class that stands after a bracket. -/
def bracketAt : List Char → BracketName
  | ':' :: inner => readBracketName inner
  | _ => .absent

/-- Opens a class where no more than `room` may be open. -/
def openNested (room : Nat) (rest : List Char) : Except Error (OpenClass × Nat) :=
  if room = 0 then .error .tooDeep else openClass rest

/-- The characters that have a property or, if that is asked for, those that do not have it. -/
def Options.propertySet (options : Options) (property : WrittenProperty) : Except Error CharSet :=
  match options.property? property.name with
  | some set => .ok (if property.negated then .complement set else set)
  | none => .error (.unknownProperty property.name)

/-- Reads on in the classes that are open, the innermost first. Gives the outermost class once it is
closed, and `width` plus the number of characters read. No more than `room` classes may be open inside
it. -/
def readClassFrom (options : Options) (cls : OpenClass) (outer : List OpenClass) (room width : Nat) :
    List Char → Except Error (OpenClass × Nat)
  | [] => .error .unclosedClass
  | ']' :: rest =>
    match outer with
    | [] => .ok (cls, width + 1)
    | parent :: outer =>
      readClassFrom options (parent.pushNested cls.set) outer (room + 1) (width + 1) rest
  | '-' :: rest => do readClassFrom options (← cls.pushHyphen rest) outer room (width + 1) rest
  | '&' :: '&' :: rest => readClassFrom options cls.pushAnd outer room (width + 2) rest
  | '\\' :: [] => .error .endAtEscape
  | '\\' :: c :: rest =>
    match escapedClass? c with
    | some (name, negated) => do
      readClassFrom options (← cls.pushNamed (options.signedSet name negated)) outer room
        (width + 2) rest
    | none => do
      match ← readProperty c rest with
      | some property =>
        let set ← options.propertySet property
        readClassFrom options (← cls.pushNamed set) outer room (width + 2 + property.width)
          (rest.drop property.width)
      | none =>
        let (codes, extra) ← readEscapedCodes (c :: rest)
        readClassFrom options (← cls.pushAllEscaped codes) outer room (width + 1 + extra)
          (rest.drop (extra - 1))
  | '[' :: rest =>
    match bracketAt rest with
    | .known name negated extra => do
      readClassFrom options (← cls.pushNamed (options.signedSet name negated)) outer room
        (width + 2 + extra) (rest.drop (extra + 1))
    | .unknown => .error .unknownClass
    | .literal => do readClassFrom options (← cls.pushChar '[') outer room (width + 1) rest
    | .absent => do
      let (inner, extra) ← openNested room rest
      readClassFrom options inner (cls :: outer) (room - 1) (width + 1 + extra) (rest.drop extra)
  | c :: rest => do readClassFrom options (← cls.pushChar c) outer room (width + 1) rest
termination_by chars => chars.length
decreasing_by all_goals simp_wf <;> omega

/-- Reads a class, given what follows its opening bracket. Gives its members, whether they are
negated, and how many characters it took. With itself, `room` classes may be nested. -/
def readClass (options : Options) (room : Nat) (rest : List Char) :
    Except Error (CharSet × Bool × Nat) := do
  let (cls, width) ← openNested room rest
  let (cls, width) ← readClassFrom options cls [] (room - 1) width (rest.drop width)
  return (cls.base, cls.negated, width)

end ScopeLexer.Regex

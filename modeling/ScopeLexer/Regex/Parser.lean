import ScopeLexer.Regex.Token
import ScopeLexer.Regex.Repetition

/-!
Reading a pattern. The reader passes over the tokens once and keeps a stack of the groups that are
open; each open group holds the branches finished so far and the items of the one being read, the
last one first. An option such as `(?i)` opens a group of its own that the end of the enclosing group
closes, so it also holds for the branches that follow.

The expression keeps how the pattern was put together: characters in a row are one text, off which a
repetition splits the last character, and only what stands first in a branch keeps a list of its own.
-/
namespace ScopeLexer.Regex

/-- How deeply groups, classes and repetitions may be nested: a group counts twice, for its branches and
for its items. -/
def deepest : Nat := 4096

/-- What an item is, apart from its expression. -/
inductive ItemKind where
  /-- Characters, to which the next one is added. -/
  | chars
  /-- A group without a meaning of its own. -/
  | grouped
  /-- A group without a meaning of its own that is the first item of another. -/
  | firstGrouped
  /-- Anything else. -/
  | single
  deriving Repr, DecidableEq, Inhabited

/-- An item of a branch. -/
structure Item where
  expr : Expr
  kind : ItemKind := .single
  /-- The text that the item was split off. -/
  lead : Option Expr := none
  /-- How many repetitions have been put around it. -/
  repetitions : Nat := 0

namespace Item

/-- The expression of an item. -/
def whole (item : Item) : Expr :=
  let expr := if item.kind = .firstGrouped then .list [item.expr] else item.expr
  match item.lead with
  | some lead => .list [lead, expr]
  | none => expr

/-- The expressions that an item gives where it is not the first. -/
def parts (item : Item) : List Expr :=
  match item.whole with
  | .list items => items
  | expr => [expr]

/-- What of an item is repeated: of several characters the last one, which is split off, but all of a
group. -/
def split (item : Item) : Item :=
  if item.kind = .grouped || item.kind = .firstGrouped then item
  else
    match item.expr with
    | .text (first :: second :: rest) ignoreCase =>
      let chars := first :: second :: rest
      { item with
        expr := .text [rest.getLast?.getD second] ignoreCase
        lead := some (.text chars.dropLast ignoreCase) }
    | _ => item

/-- An item repeated, so many groups and their branches being open. -/
def repeated (item : Item) (depth : Nat) (rounds : Rounds) (possessive : Bool) :
    Except Error Item :=
  let repetitions := item.repetitions + 1
  if item.kind ≠ .firstGrouped && !item.expr.repeatable then .error .unrepeatable
  else if deepest < depth + repetitions then .error .tooDeep
  else if rounds.least = 1 && rounds.most = some 1 then
    .ok { item with kind := .single, repetitions }
  else do
    let expr ← item.split.expr.repeated rounds
    return {
      expr := if possessive then .atomic expr else expr
      kind := .single
      lead := item.split.lead
      repetitions }

end Item

/-- What is done with the body of a group that is open. -/
inductive Enclosure where
  /-- What an option opens: it has no end of its own. -/
  | option
  | plain
  | wrapped (wrap : Expr → Expr)
  | capture (index : Nat)
  | test
  | branches (test : Expr) (onlyNo : Bool)

/-- A group that is open, and the state to go back to. -/
structure OpenGroup where
  enclosure : Enclosure
  /-- The options outside the group. -/
  options : Options
  /-- The finished branches around the group, the last one first. -/
  branches : List Expr
  /-- The items before the group, the last one first. -/
  items : List Item

structure Reader where
  options : Options := {}
  groups : Groups := {}
  branches : List Expr := []
  items : List Item := []
  enclosing : List OpenGroup := []
  /-- How deeply what is being read is nested. -/
  depth : Nat := 2

namespace Reader

/-- The branch that some items make, the last one coming first. -/
def branch (items : List Item) : Expr :=
  match items.reverse with
  | [] => .empty
  | [one] => one.whole
  | first :: rest => .list (first.whole :: rest.flatMap Item.parts)

def body (reader : Reader) : Expr :=
  Expr.alternatives (branch reader.items :: reader.branches).reverse

def push (reader : Reader) (item : Item) : Reader :=
  { reader with items := item :: reader.items }

def pushAll (reader : Reader) (exprs : List Expr) : Reader :=
  exprs.foldl (fun reader expr => reader.push ⟨expr, .single, none, 0⟩) reader

/-- The items after a character, which is added to those before it. -/
def itemsWithChar (ignoreCase : Bool) (c : Char) : List Item → List Item
  | ⟨.text chars ownCase, .chars, lead, repetitions⟩ :: items =>
    ⟨.text (chars ++ [c]) ownCase, .chars, lead, repetitions⟩ :: items
  | items => ⟨.text [c] ignoreCase, .chars, none, 0⟩ :: items

def pushChar (reader : Reader) (c : Char) : Reader :=
  { reader with items := itemsWithChar reader.options.ignoreCase c reader.items }

def enter (reader : Reader) (enclosure : Enclosure) (options : Options) : Reader :=
  { reader with
    options := options
    branches := []
    items := []
    depth := reader.depth + 2
    enclosing :=
      ⟨enclosure, reader.options, reader.branches, reader.items⟩ :: reader.enclosing }

/-- The reader outside a group that has been read. -/
def leave (reader : Reader) (group : OpenGroup) (outer : List OpenGroup) : Reader :=
  { reader with
    options := group.options
    branches := group.branches
    items := group.items
    depth := reader.depth - 2
    enclosing := outer }

/-- Whether the next item is the first of a group without a meaning of its own. -/
def startsPlain (reader : Reader) : Bool :=
  reader.items.isEmpty && reader.branches.isEmpty &&
    match reader.enclosing with
    | ⟨.plain, _, _, _⟩ :: _ => true
    | _ => false

/-- The reader inside a group of a kind. A capture takes the next number. -/
def openGroup (reader : Reader) (kind : GroupKind) (options : Options) : Reader :=
  match kind with
  | .plain => reader.enter .plain options
  | .scoped => reader.enter (.wrapped .scoped) options
  | .atomic => reader.enter (.wrapped .atomic) options
  | .lookAhead negated => reader.enter (.wrapped (.lookAhead negated)) options
  | .lookBehind negated => reader.enter (.wrapped (.lookBehind negated ⟨0, some 0⟩)) options
  | .test => reader.enter .test options
  | .branches test onlyNo => reader.enter (.branches test onlyNo) options
  | .capture name =>
    let index := reader.groups.count + 1
    let names := match name with
      | some name => (name, index) :: reader.groups.names
      | none => reader.groups.names
    { reader with groups := ⟨index, names, index :: reader.groups.opened⟩ }.enter (.capture index)
      options

/-- The conditional of a test and what its branches make: one branch is for when the test holds, a second
one and all that follow are for when it fails. -/
def conditional (test : Expr) (onlyNo : Bool) (body : Expr) : Expr :=
  if onlyNo then .conditional test .empty body
  else
    match body with
    | .choice (yes :: rest) => .conditional test yes (Expr.alternatives rest)
    | yes => .conditional test yes .empty

/-- Closes the option groups that are open, and the group around them. After the test of a conditional
the text says how it goes on: gives also how many characters that takes. -/
def closeThrough (reader : Reader) (rest : List Char) :
    List OpenGroup → Except Error (Reader × Nat)
  | [] => .error .strayClose
  | group :: outer =>
    let outside := reader.leave group outer
    let body := reader.body
    match group.enclosure with
    | .option => closeThrough (outside.push ⟨.scoped body, .single, none, 0⟩) rest outer
    | .plain =>
      let kind := if outside.startsPlain then .firstGrouped else .grouped
      .ok (outside.push ⟨body, kind, none, 0⟩, 0)
    | .wrapped wrap => .ok (outside.push ⟨wrap body, .single, none, 0⟩, 0)
    | .capture index =>
      let groups := { outside.groups with opened := outside.groups.opened.tail }
      .ok ({ outside with groups }.push ⟨.group index {} body, .single, none, 0⟩, 0)
    | .branches test onlyNo =>
      .ok (outside.push ⟨conditional test onlyNo body, .single, none, 0⟩, 0)
    | .test => do
      let (token, width) ← readAfterTest outside.options body false rest
      match token with
      | .openGroup kind options => return (outside.openGroup kind options, width)
      | _ => throw .badConditional

/-- Closes the option groups that are open at the end of the pattern. -/
def finishThrough (reader : Reader) : List OpenGroup → Except Error Reader
  | [] => .ok reader
  | group :: outer =>
    match group.enclosure with
    | .option =>
      finishThrough ((reader.leave group outer).push ⟨.scoped reader.body, .single, none, 0⟩) outer
    | _ => .error .unclosedGroup

/-- The reader after a token, given the text behind it, of which the number says how much was read. -/
def step (reader : Reader) (token : Token) (rest : List Char) : Except Error (Reader × Nat) :=
  if deepest < reader.depth then .error .tooDeep
  else
    match token with
    | .char c => .ok (reader.pushChar c, 0)
    | .items exprs => .ok (reader.pushAll exprs, 0)
    | .openGroup kind options => .ok (reader.openGroup kind options, 0)
    | .setOptions options => .ok (reader.enter .option options, 0)
    | .closeGroup => reader.closeThrough rest reader.enclosing
    | .bar => .ok ({ reader with branches := branch reader.items :: reader.branches, items := [] }, 0)
    | .repetition least most greed =>
      match reader.items with
      | [] => .error .nothingToRepeat
      | item :: items => do
        let rounds : Rounds := { least, most, reluctant := greed = .reluctant }
        let item ← item.repeated reader.depth rounds (greed = .possessive)
        return ({ reader with items := item :: items }, 0)
    | .nothing => .ok (reader, 0)

/-- What the next token depends on. -/
def surroundings (reader : Reader) : Surroundings :=
  ⟨reader.options, reader.groups, deepest - reader.depth⟩

def readAll (reader : Reader) : List Char → Except Error Reader
  | [] => if deepest < reader.depth then .error .tooDeep else .ok reader
  | c :: rest => do
    let (token, width) ← readToken reader.surroundings c rest
    let (reader, more) ← reader.step token (rest.drop width)
    readAll reader (rest.drop (width + more))
termination_by chars => chars.length
decreasing_by simp only [List.length_drop, List.length_cons]; omega

end Reader

/-- A pattern as it was read: its expression, the number of its groups, and their names. -/
structure Reading where
  expr : Expr
  groups : Nat
  names : List (String × Nat)

def readPattern (pattern : String) : Except Error Reading := do
  let reader ← Reader.readAll {} pattern.toList
  let reader ← reader.finishThrough reader.enclosing
  return ⟨reader.body, reader.groups.count, reader.groups.names⟩

end ScopeLexer.Regex

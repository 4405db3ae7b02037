import ScopeLexer.Json.Number
import ScopeLexer.Json.Reader
import ScopeLexer.Table
import ScopeLexer.Text.Quoted

/-!
Reading a value as something of a given shape. The first problem in the order of the document is
reported, whether the text goes wrong there or a value has another shape than is wanted. A reader of a
shape is given the number of arrays and objects that may still be opened, since documents nest 127
deep at most.
-/
namespace ScopeLexer.Json

/-- What was found where something else was wanted. -/
inductive Found where
  | null
  | boolean (value : Bool)
  | integer (value : Int)
  | real (shown : String)
  | string (value : String)
  | sequence
  | map
  deriving Repr, DecidableEq, Inhabited

def Found.describe : Found → String
  | .null => "null"
  | .boolean value => "boolean `" ++ (if value then "true" else "false") ++ "`"
  | .integer value => "integer `" ++ toString value ++ "`"
  | .real shown => "floating point `" ++ shown ++ "`"
  | .string value => "string " ++ Text.quote value
  | .sequence => "sequence"
  | .map => "map"

/-- Why a document cannot be read as what is wanted. -/
inductive DecodeError where
  /-- The text is no JSON, or nests too deep. -/
  | fault (fault : Fault)
  /-- A value of another type. -/
  | wrongType (found : Found) (wanted : String)
  /-- A value of the right type that is not allowed. -/
  | wrongValue (found : Found) (wanted : String)
  /-- An array with too few items for the fields of a record. -/
  | wrongLength (length : Nat) (wanted : String)
  /-- A member that must be there is not. -/
  | missingField (name : String)
  /-- A member that is there twice. -/
  | duplicateField (name : String)
  /-- A word that is none of those allowed. -/
  | unknownVariant (name : String) (allowed : List String)
  /-- A value that fits none of several shapes. -/
  | noVariant (name : String)
  deriving Repr, DecidableEq, Inhabited

def DecodeError.reason : DecodeError → String
  | .fault .ended => "unexpected end of the text"
  | .fault .malformed => "malformed text"
  | .wrongType found wanted => "invalid type: " ++ found.describe ++ ", expected " ++ wanted
  | .wrongValue found wanted => "invalid value: " ++ found.describe ++ ", expected " ++ wanted
  | .wrongLength length wanted => "invalid length " ++ toString length ++ ", expected " ++ wanted
  | .missingField name => "missing field `" ++ name ++ "`"
  | .duplicateField name => "duplicate field `" ++ name ++ "`"
  | .unknownVariant name allowed =>
    "unknown variant `" ++ name ++ "`, expected one of " ++
      ", ".intercalate (allowed.map fun word => "`" ++ word ++ "`")
  | .noVariant name => "data did not match any variant of untagged enum " ++ name

/-- How many arrays and objects may be open at once. -/
def maxNesting : Nat := 127

/-- The error of a value with another type than wanted. A fault in the text is met first. -/
def mismatch (wanted : String) : Json → DecodeError
  | .null => .wrongType .null wanted
  | .bool value => .wrongType (.boolean value) wanted
  | .number literal =>
    match literal.value with
    | .integer value => .wrongType (.integer value) wanted
    | .real shown => .wrongType (.real shown) wanted
    | .tooLarge => .fault .malformed
  | .string value => .wrongType (.string value) wanted
  | .loneSurrogate _ => .fault .malformed
  | .array _ _ => .wrongType .sequence wanted
  | .object _ _ => .wrongType .map wanted
  | .cut _ => .fault .ended
  | .broken fault => .fault fault

section

variable {m : Type → Type} [Monad m] [MonadExceptOf DecodeError m] {α σ : Type}

/-- Goes on if there is no fault. -/
def orFault (fault : Option Fault) : m Unit :=
  match fault with
  | some fault => throw (.fault fault)
  | none => pure ()

/-- Skips a value, which may nest to any depth. -/
def skip (json : Json) : m Unit := orFault json.skipFault

/-- Reads the name of a member, given its value. -/
def readName (json : Json) : Name → m String
  | .text name => pure name
  | .loneSurrogate => throw (.fault .malformed)
  | .missing => throw (.fault (missingNameFault json))

/-- Reads a value that may be absent: a null counts as absent. -/
def optional (read : Nat → Json → m α) (allowed : Nat) : Json → m (Option α)
  | .null => pure none
  | json => some <$> read allowed json

def readText (wanted : String) (_ : Nat) : Json → m String
  | .string value => pure value
  | json => throw (mismatch wanted json)

/-- Reads an array, each item with the same reader. -/
def readList (read : Nat → Json → m α) : Nat → Json → m (List α)
  | allowed, .array items fault =>
    match allowed with
    | 0 => throw (.fault .malformed)
    | allowed + 1 => do
      let values ← items.mapM (read allowed)
      orFault fault
      return values
  | _, json => throw (mismatch "a sequence" json)

/-- Reads an object as a table. The last member of a name counts. -/
def readTable (read : Nat → Json → m α) : Nat → Json → m (Table α)
  | allowed, .object members fault =>
    match allowed with
    | 0 => throw (.fault .malformed)
    | allowed + 1 => do
      let writes ← members.mapM fun (name, json) => do
        return (← readName json name, ← read allowed json)
      orFault fault
      return Table.ofList writes
  | _, json => throw (mismatch "a map" json)

structure RecordShape where
  name : String
  fields : List String
  /-- Fields that an object must have. -/
  required : List String := []
  /-- Fields that an array must have. -/
  requiredInArray : List String := []

/-- What a record is called when something else is found. -/
def RecordShape.wanted (shape : RecordShape) : String := "struct " ++ shape.name

/-- Reads the members of an object into a record. Members that are no fields are skipped. -/
def readMembersInto (shape : RecordShape) (set : String → Json → σ → m σ) :
    List String → List (Name × Json) → σ → m (List String × σ)
  | seen, [], record => pure (seen, record)
  | seen, (name, json) :: members, record => do
    let name ← readName json name
    if shape.fields.contains name then
      if seen.contains name then throw (.duplicateField name)
      else readMembersInto shape set (name :: seen) members (← set name json record)
    else
      skip json
      readMembersInto shape set seen members record

/-- Reads the items of an array into a record, by position. Gives the number of items that were
read. Items beyond the last field are not allowed. -/
def readItemsInto (shape : RecordShape) (set : String → Json → σ → m σ) (fault : Option Fault) :
    Nat → List String → List Json → σ → m σ
  | _, [], [], record => do
    orFault fault
    return record
  | _, [], _ :: _, _ => throw (.fault .malformed)
  | count, fields, [], record => do
    orFault fault
    if fields.any shape.requiredInArray.contains then
      throw (.wrongLength count
        (shape.wanted ++ " with " ++ toString shape.fields.length ++ " elements"))
    return record
  | count, field :: fields, item :: items, record => do
    readItemsInto shape set fault (count + 1) fields items (← set field item record)

/-- Reads a record from an object or from an array. `set` reads a field into the record; it is given
how many arrays and objects may still be opened. -/
def readRecord (shape : RecordShape) (set : Nat → String → Json → σ → m σ) (start : σ) :
    Nat → Json → m σ
  | 0, .object _ _ | 0, .array _ _ => throw (.fault .malformed)
  | allowed + 1, .object members fault => do
    let (seen, record) ← readMembersInto shape (set allowed) [] members start
    orFault fault
    match shape.required.find? (!seen.contains ·) with
    | some name => throw (.missingField name)
    | none => return record
  | allowed + 1, .array items fault =>
    readItemsInto shape (set allowed) fault 0 shape.fields items start
  | _, json => throw (mismatch shape.wanted json)

def readWord32 (_ : Nat) : Json → m Nat
  | .number literal =>
    match literal.value with
    | .integer value =>
      if 0 ≤ value && value < 0x100000000 then pure value.toNat
      else throw (.wrongValue (.integer value) "u32")
    | _ => throw (mismatch "u32" (.number literal))
  | json => throw (mismatch "u32" json)

end

mutual

/-- The first problem in a value that is read as a whole before its shape is looked at, with the
number of arrays and objects that may still be opened. -/
def bufferFault : Nat → Json → Option Fault
  | _, .null | _, .bool _ | _, .string _ => none
  | _, .number literal =>
    match literal.value with
    | .tooLarge => some .malformed
    | _ => none
  | _, .loneSurrogate _ => some .malformed
  | 0, .array _ _ | 0, .object _ _ => some .malformed
  | allowed + 1, .array items fault => (bufferFaultItems allowed items).orElse fun _ => fault
  | allowed + 1, .object members fault => (bufferFaultMembers allowed members).orElse fun _ => fault
  | _, .cut _ => some .ended
  | _, .broken fault => some fault

/-- The first problem in items. -/
def bufferFaultItems : Nat → List Json → Option Fault
  | _, [] => none
  | allowed, item :: items =>
    (bufferFault allowed item).orElse fun _ => bufferFaultItems allowed items

/-- The first problem in members. -/
def bufferFaultMembers : Nat → List (Name × Json) → Option Fault
  | _, [] => none
  | _, (.missing, value) :: _ => some (missingNameFault value)
  | _, (.loneSurrogate, _) :: _ => some .malformed
  | allowed, (.text _, value) :: members =>
    (bufferFault allowed value).orElse fun _ => bufferFaultMembers allowed members

end

/-- Reads a whole document, after which only spaces may follow. -/
def decodeDocument {α : Type} (read : Nat → Json → Except DecodeError α) (text : String) :
    Except DecodeError α := do
  let document := readDocument text
  let value ← read maxNesting document.value
  if document.trailing then throw (.fault .malformed)
  return value

end ScopeLexer.Json

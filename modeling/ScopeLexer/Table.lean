/-!
Tables with text keys. The entries stand in the order of their keys, by code point, and a key occurs
once: inserting under a key that is there replaces the value, so the last write wins.
-/
namespace ScopeLexer

/-- Values under text keys, in key order. -/
structure Table (α : Type) where
  entries : List (String × α) := []
  deriving Repr, DecidableEq, Inhabited

namespace Table

variable {α β : Type}

def empty : Table α := ⟨[]⟩

/-- Puts a value under a key into entries that stand in key order. -/
def insertEntry (key : String) (value : α) : List (String × α) → List (String × α)
  | [] => [(key, value)]
  | (other, held) :: rest =>
    if key = other then (key, value) :: rest
    else if key < other then (key, value) :: (other, held) :: rest
    else (other, held) :: insertEntry key value rest

/-- Puts a value under a key, in place of any value it had. -/
def insert (table : Table α) (key : String) (value : α) : Table α :=
  ⟨insertEntry key value table.entries⟩

def get? (table : Table α) (key : String) : Option α :=
  table.entries.lookup key

def contains (table : Table α) (key : String) : Bool :=
  (table.get? key).isSome

def erase (table : Table α) (key : String) : Table α :=
  ⟨table.entries.filter fun entry => entry.1 ≠ key⟩

/-- The table of a list of writes, made one after the other. -/
def ofList (writes : List (String × α)) : Table α :=
  writes.foldl (fun table (key, value) => table.insert key value) empty

def keys (table : Table α) : List String := table.entries.map Prod.fst

/-- The values, in the order of their keys. -/
def values (table : Table α) : List α := table.entries.map Prod.snd

def map (f : α → β) (table : Table α) : Table β :=
  ⟨table.entries.map fun (key, value) => (key, f value)⟩

end Table
end ScopeLexer

/-!
Small maps, for keys that have no order. A key has at most one value, the one written last.
-/
namespace ScopeLexer

/-- Values under keys. -/
structure Dictionary (κ α : Type) where
  entries : List (κ × α) := []
  deriving Repr, Inhabited

namespace Dictionary

variable {κ α : Type} [DecidableEq κ]

def get? (dictionary : Dictionary κ α) (key : κ) : Option α := dictionary.entries.lookup key

def size (dictionary : Dictionary κ α) : Nat := dictionary.entries.length

/-- Puts a value in place of the one that a key has. -/
def replaceEntry (key : κ) (value : α) : List (κ × α) → List (κ × α)
  | [] => []
  | (other, held) :: rest =>
    if key = other then (key, value) :: rest else (other, held) :: replaceEntry key value rest

/-- Puts a value under a key, in place of any value it had. -/
def insert (dictionary : Dictionary κ α) (key : κ) (value : α) : Dictionary κ α :=
  if (dictionary.get? key).isSome then ⟨replaceEntry key value dictionary.entries⟩
  else ⟨(key, value) :: dictionary.entries⟩

theorem lookup_entry (asked held : κ) (value : α) (rest : List (κ × α)) :
    ((held, value) :: rest).lookup asked = if asked = held then some value else rest.lookup asked := by
  by_cases here : asked = held
  · simp [here]
  · have skip : (asked == held) = false := by simp [here]
    simp [List.lookup_cons, here, skip]

/-- Replacing the value under a key leaves the other keys alone, and does not add the key where it
is missing. -/
theorem lookup_replaceEntry (key asked : κ) (value : α) (entries : List (κ × α)) :
    (replaceEntry key value entries).lookup asked =
      if asked = key then (entries.lookup key).map fun _ => value else entries.lookup asked := by
  induction entries with
  | nil => simp [replaceEntry]
  | cons entry rest ih =>
    obtain ⟨held, old⟩ := entry
    by_cases here : key = held
    · subst here
      by_cases same : asked = key <;> simp [replaceEntry, lookup_entry, same]
    · by_cases same : asked = held
      · subst same
        simp [replaceEntry, here, Ne.symm here]
      · simp [replaceEntry, lookup_entry, here, same, ih]

/-- A key has the value written last, and writing under one key leaves the others alone. -/
@[simp]
theorem get?_insert (dictionary : Dictionary κ α) (key asked : κ) (value : α) :
    (dictionary.insert key value).get? asked =
      if asked = key then some value else dictionary.get? asked := by
  unfold insert
  split
  next present =>
    obtain ⟨old, found⟩ := Option.isSome_iff_exists.1 present
    simp only [get?] at found ⊢
    rw [lookup_replaceEntry, found, Option.map_some]
  next => simp [get?, lookup_entry]

@[simp]
theorem get?_empty (key : κ) : ({} : Dictionary κ α).get? key = none := rfl

end Dictionary
end ScopeLexer

import Mathlib.Data.String.Basic
import ScopeLexer.Proofs.DependencyRounds
import ScopeLexer.Proofs.SelectorMeaning
import ScopeLexer.ScopePath

/-!
The language of an embedded scope. The keys of a table stand in order, and a key that is the front part of
another stands before it. So of the keys that cover one scope, which are all front parts of its name, the
last in the table is the longest, whatever other keys stand between them.
-/
namespace ScopeLexer

namespace Table

variable {α : Type}

/-- Every key stands before those that are greater, so no key occurs twice. -/
def Ordered (entries : List (String × α)) : Prop :=
  entries.Pairwise fun entry next => entry.1 < next.1

/-- Entries in the order of their keys stay so when one is put in. -/
theorem ordered_insertEntry (key : String) (value : α) {entries : List (String × α)}
    (ordered : Ordered entries) : Ordered (insertEntry key value entries) := by
  induction entries with
  | nil => exact List.pairwise_singleton _ _
  | cons entry rest ih =>
    obtain ⟨other, held⟩ := entry
    obtain ⟨before, rest_ordered⟩ := List.pairwise_cons.mp ordered
    unfold insertEntry
    split
    next same =>
      subst same
      exact List.pairwise_cons.mpr ⟨before, rest_ordered⟩
    next differ =>
      split
      next less =>
        refine List.pairwise_cons.mpr ⟨?_, ordered⟩
        exact List.forall_mem_cons.mpr ⟨less, fun next member => less.trans (before next member)⟩
      next notLess =>
        have greater : other < key := lt_of_le_of_ne (not_lt.mp notLess) (Ne.symm differ)
        refine List.pairwise_cons.mpr ⟨fun next member => ?_, ih rest_ordered⟩
        rcases mem_insertEntry member with rfl | old
        · exact greater
        · exact before next old

/-- Tables that are written entry by entry are in order. -/
theorem ordered_ofList (writes : List (String × α)) : Ordered (ofList writes).entries := by
  have from_ordered (writes : List (String × α)) (table : Table α) (ordered : Ordered table.entries) :
      Ordered (writes.foldl (fun table write => table.insert write.1 write.2) table).entries := by
    induction writes generalizing table with
    | nil => exact ordered
    | cons write writes ih => exact ih _ (ordered_insertEntry write.1 write.2 ordered)
  exact from_ordered writes empty List.Pairwise.nil

theorem get?_of_mem {table : Table α} (ordered : Ordered table.entries)
    (member : (key, value) ∈ table.entries) : table.get? key = some value := by
  obtain ⟨before, after, split⟩ := List.append_of_mem member
  refine List.lookup_eq_some_iff.mpr ⟨before, after, split, fun entry earlier => ?_⟩
  rw [Ordered, split] at ordered
  have less := (List.pairwise_append.mp ordered).2.2 entry earlier _ List.mem_cons_self
  exact bne_iff_ne.mpr (ne_of_gt less)

theorem mem_of_get? {table : Table α} (held : table.get? key = some value) :
    (key, value) ∈ table.entries := by
  obtain ⟨before, after, split, _⟩ := List.lookup_eq_some_iff.mp held
  rw [split]
  exact List.mem_append_right _ List.mem_cons_self

/-- Of the entries that will do, the last in order has the greatest key. -/
theorem find?_reverse {entries : List (String × α)} (ordered : Ordered entries)
    {among : String × α → Bool} (found : entries.reverse.find? among = some entry)
    (member : other ∈ entries) (does : among other = true) :
    other = entry ∨ other.1 < entry.1 := by
  obtain ⟨-, later, earlier, split, none⟩ := List.find?_eq_some_iff_append.mp found
  have whole : entries = earlier.reverse ++ entry :: later.reverse := by
    rw [← List.reverse_reverse entries, split]
    simp
  rw [Ordered, whole] at ordered
  rw [whole] at member
  rcases List.mem_append.mp member with before | here
  · exact .inr ((List.pairwise_append.mp ordered).2.2 other before entry List.mem_cons_self)
  · rcases List.mem_cons.mp here with rfl | after
    · exact .inl rfl
    · have fails := none other (List.mem_reverse.mp after)
      rw [does] at fails
      cases fails

end Table

namespace Scope

/-- A key is a front part of a scope: it is empty, or it is the scope, or a dot follows it there. -/
def Begins (key scope : String) : Prop := key = "" ∨ Continues key scope

theorem coversText_iff_begins {key scope : String} :
    coversText key scope = true ↔ Begins key scope := by
  by_cases empty : key = ""
  · subst empty
    simp [Begins, coversText, coversChars]
  · rw [coversText_iff empty, Begins, or_iff_right empty]

theorem Begins.isPrefix {key scope : String} (begins : Begins key scope) :
    key.toList <+: scope.toList := by
  rcases begins with rfl | rfl | ⟨more, rfl⟩
  · exact List.nil_prefix
  · exact List.prefix_refl _
  · exact ⟨'.' :: more.toList, by simp⟩

theorem lt_append {start more : List Char} (some : more ≠ []) : start < start ++ more := by
  induction start with
  | nil =>
    obtain ⟨c, more, rfl⟩ := List.exists_cons_of_ne_nil some
    exact List.nil_lt_cons c more
  | cons c start ih => exact List.cons_lt_cons_self.mpr ih

/-- Of two front parts of one scope the greater is the longer. -/
theorem length_lt_of_lt {first second scope : String} (begins : Begins first scope)
    (also : Begins second scope) (less : first < second) : first.length < second.length := by
  by_contra short
  have inside : second.toList <+: first.toList :=
    List.prefix_of_prefix_length_le also.isPrefix begins.isPrefix (Nat.le_of_not_lt short)
  obtain ⟨more, whole⟩ := inside
  rw [String.lt_iff_toList_lt, ← whole] at less
  by_cases none : more = []
  · subst none
    rw [List.append_nil] at less
    exact lt_irrefl _ less
  · exact lt_asymm less (lt_append none)

end Scope

/-- For every table of languages and every scope, the language is that of the longest key that is a front
part of the scope. If there is none, it is 0. -/
theorem language_of_longest_key (theme : Theme) (language : Nat) (writes : List (String × Nat))
    (scope : String) :
    let languages := Table.ofList writes
    let styling : Styling := ⟨theme, language, languages⟩
    (∃ key, Scope.Begins key scope ∧ languages.get? key = some (styling.languageOf scope) ∧
      ∀ other, languages.contains other = true → Scope.Begins other scope → other ≠ key →
        other.length < key.length) ∨
    ((∀ key, languages.contains key = true → ¬ Scope.Begins key scope) ∧
      styling.languageOf scope = 0) := by
  intro languages styling
  have ordered : Table.Ordered languages.entries := Table.ordered_ofList writes
  cases found : languages.entries.reverse.find? fun entry => Scope.coversText entry.1 scope with
  | some entry =>
    obtain ⟨key, id⟩ := entry
    have covers : Scope.coversText key scope = true := by
      simpa using List.find?_some found
    have begins : Scope.Begins key scope := Scope.coversText_iff_begins.mp covers
    have member : (key, id) ∈ languages.entries :=
      List.mem_reverse.mp (List.mem_of_find?_eq_some found)
    have chosen : styling.languageOf scope = id := by
      simp [Styling.languageOf, styling, found]
    refine .inl ⟨key, begins, chosen ▸ Table.get?_of_mem ordered member, ?_⟩
    intro other held also differs
    obtain ⟨otherId, under⟩ := Option.isSome_iff_exists.mp held
    obtain same | less := Table.find?_reverse ordered found (Table.mem_of_get? under)
      (Scope.coversText_iff_begins.mpr also)
    · exact absurd (congrArg Prod.fst same) differs
    · exact Scope.length_lt_of_lt also begins less
  | none =>
    refine .inr ⟨fun key held begins => ?_, by simp [Styling.languageOf, styling, found]⟩
    obtain ⟨id, under⟩ := Option.isSome_iff_exists.mp held
    have member := List.mem_reverse.mpr (Table.mem_of_get? under)
    exact List.find?_eq_none.mp found _ member (Scope.coversText_iff_begins.mpr begins)

/-- A key with a hyphen stands between two that cover the scope. -/
example :
    let languages := Table.ofList
      [("source.css.embedded", 3), ("source.css", 2), ("source.css-extra", 4), ("", 1)]
    languages.keys = ["", "source.css", "source.css-extra", "source.css.embedded"] ∧
      Styling.languageOf ⟨.plain, 0, languages⟩ "source.css.embedded.html" = 3 := by
  decide +kernel

end ScopeLexer

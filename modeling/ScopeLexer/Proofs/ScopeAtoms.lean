import Mathlib.Order.Defs.Unbundled
import ScopeLexer.Proofs.EmbeddedLanguages
import ScopeLexer.Proofs.ThemeOrder

/-!
Scopes atom by atom. A name covers a scope exactly if its atoms are the first atoms of the scope, or if the
name is empty. So covering is a partial order with the empty name at the bottom, and the names that cover one
scope form a chain. The bytes of a name and a scope tell the same as their characters: what starts with the
bytes of a text starts with the text, and no character but the dot starts with the byte of the dot.
-/
namespace ScopeLexer

namespace Text

/-- The pieces of a text come first among those of another exactly if the other is the same text or goes on
with a separator. -/
theorem piecesOf_isPrefix_iff {separator : Char} {start chars : List Char} :
    piecesOf separator start <+: piecesOf separator chars ↔
      chars = start ∨ ∃ more, chars = start ++ separator :: more := by
  induction start generalizing chars with
  | nil =>
    cases chars with
    | nil => simp
    | cons d chars =>
      obtain ⟨piece, pieces, cut⟩ := Theme.piecesOf_eq_cons separator chars
      by_cases ends : d = separator
      · simp [piecesOf, ends]
      · simp [piecesOf, ends, cut]
  | cons c start ih =>
    obtain ⟨piece, pieces, cut⟩ := Theme.piecesOf_eq_cons separator start
    cases chars with
    | nil => by_cases ends : c = separator <;> simp [piecesOf, ends, cut]
    | cons d chars =>
      obtain ⟨other, others, cutOther⟩ := Theme.piecesOf_eq_cons separator chars
      have rest := @ih chars
      rw [cut, cutOther, List.cons_prefix_cons] at rest
      by_cases ends : c = separator
      · by_cases also : d = separator
        · simp [piecesOf, ends, also, cut, cutOther, rest]
        · simp [piecesOf, ends, also, cut, cutOther]
      · by_cases also : d = separator
        · simp [piecesOf, ends, also, cut, cutOther, Ne.symm ends]
        · -- Neither is a separator, so both belong to the first piece of what follows them.
          calc
            _ ↔ c = d ∧ piece = other ∧ pieces <+: others := by
              simp only [piecesOf, if_neg ends, if_neg also, cut, cutOther, List.cons_prefix_cons,
                List.cons.injEq, and_assoc]
            _ ↔ _ := by
              rw [rest]
              simp only [List.cons_append, List.cons.injEq, exists_and_left, ← and_or_left,
                @eq_comm _ c d]

def bytes (text : String) : List UInt8 := text.toByteArray.data.toList

theorem length_bytes (text : String) : (bytes text).length = text.utf8ByteSize :=
  text.size_toByteArray

theorem bytes_append (first second : String) :
    bytes (first ++ second) = bytes first ++ bytes second := by
  simp [bytes]

/-- What follows whole characters in valid UTF-8 is valid. -/
theorem isValidUTF8_of_append {chars : List Char} {rest : ByteArray}
    (valid : (chars.utf8Encode ++ rest).IsValidUTF8) : rest.IsValidUTF8 := by
  induction chars with
  | nil => simpa using valid
  | cons c chars ih =>
    rw [List.utf8Encode_cons, ByteArray.append_assoc,
      ByteArray.isValidUTF8_utf8Encode_singleton_append_iff] at valid
    exact ih valid

theorem bytes_isPrefix_iff {first whole : String} :
    bytes first <+: bytes whole ↔ ∃ rest, whole = first ++ rest := by
  refine ⟨fun ⟨tail, same⟩ => ?_, fun ⟨rest, same⟩ => ⟨bytes rest, by rw [same, bytes_append]⟩⟩
  have joined : first.toByteArray ++ ⟨tail.toArray⟩ = whole.toByteArray := by
    apply ByteArray.ext
    apply Array.toList_inj.mp
    simpa [bytes] using same
  have valid : (first.toList.utf8Encode ++ ⟨tail.toArray⟩).IsValidUTF8 := by
    rw [← String.toByteArray_ofList, String.ofList_toList, joined]
    exact whole.isValidUTF8
  exact ⟨⟨_, isValidUTF8_of_append valid⟩, String.toByteArray_inj.mp joined.symm⟩

end Text

namespace Scope

/-- The atoms of a name: what stands between its dots, empty atoms included. -/
def atoms (name : String) : List String := Text.pieces '.' name

/-- Whether a name covers another, told from their bytes: the other is the same, or it is longer, starts with
the bytes of the name, and has the byte of a dot right after them. -/
def coversBytes (name other : String) : Bool :=
  name.isEmpty || other == name ||
    (decide (name.utf8ByteSize < other.utf8ByteSize) &&
      (Text.bytes name).isPrefixOf (Text.bytes other) &&
      (Text.bytes other)[name.utf8ByteSize]? == some '.'.toUInt8)

variable {name scope first second : String}

theorem atoms_isPrefix_iff : atoms name <+: atoms scope ↔ Continues name scope := by
  rw [atoms, atoms, Text.pieces, Text.pieces,
    List.prefix_map_iff_of_injective fun _ _ => String.ofList_injective,
    Text.piecesOf_isPrefix_iff, continues_iff]

/-- A dot has one byte, with which no other character starts. -/
theorem bytes_dot : Text.bytes "." = ['.'.toUInt8] := by
  decide

/-- Comparing bytes and looking at the byte after them tells whether the atoms begin alike. -/
theorem coversBytes_iff : coversBytes name scope = true ↔ Begins name scope := by
  have goesOn : (name.utf8ByteSize < scope.utf8ByteSize ∧ Text.bytes name <+: Text.bytes scope) ∧
      (Text.bytes scope)[name.utf8ByteSize]? = some '.'.toUInt8 ↔
      ∃ more, scope = name ++ "." ++ more := by
    constructor
    · rintro ⟨⟨-, starts⟩, dot⟩
      obtain ⟨rest, rfl⟩ := Text.bytes_isPrefix_iff.mp starts
      rw [Text.bytes_append, ← Text.length_bytes, List.getElem?_append_right (Nat.le_refl _),
        Nat.sub_self, ← List.head?_eq_getElem?] at dot
      obtain ⟨tail, same⟩ := List.head?_eq_some_iff.mp dot
      obtain ⟨more, rfl⟩ := Text.bytes_isPrefix_iff.mp (bytes_dot ▸ ⟨tail, same.symm⟩ :
        Text.bytes "." <+: Text.bytes rest)
      exact ⟨more, (String.append_assoc ..).symm⟩
    · rintro ⟨more, rfl⟩
      have whole : Text.bytes (name ++ "." ++ more) =
          Text.bytes name ++ '.'.toUInt8 :: Text.bytes more := by
        simp [Text.bytes_append, bytes_dot]
      refine ⟨⟨?_, Text.bytes_isPrefix_iff.mpr ⟨_, String.append_assoc ..⟩⟩, ?_⟩
      · rw [← Text.length_bytes, ← Text.length_bytes, whole, List.length_append, List.length_cons]
        omega
      · rw [whole, ← Text.length_bytes, List.getElem?_append_right (Nat.le_refl _), Nat.sub_self]
        rfl
  simp only [coversBytes, Bool.or_eq_true, Bool.and_eq_true, decide_eq_true_eq, beq_iff_eq,
    List.isPrefixOf_iff_prefix, goesOn, String.isEmpty_iff, or_assoc]
  rfl

theorem coversText_eq_coversBytes (name scope : String) :
    coversText name scope = coversBytes name scope :=
  Bool.eq_iff_iff.mpr (coversText_iff_begins.trans coversBytes_iff.symm)

theorem begins_iff_atoms : Begins name scope ↔ name = "" ∨ atoms name <+: atoms scope := by
  rw [Begins, atoms_isPrefix_iff]

theorem Begins.trans (begins : Begins first second) (also : Begins second scope) :
    Begins first scope := by
  rw [begins_iff_atoms] at also
  rcases also with rfl | also
  · exact .inl (String.toList_inj.mp (List.prefix_nil.mp begins.isPrefix))
  · exact begins_iff_atoms.mpr ((begins_iff_atoms.mp begins).imp_right fun starts => starts.trans also)

/-- Names that are front parts of each other are the same. -/
theorem Begins.antisymm (begins : Begins first second) (also : Begins second first) :
    first = second :=
  String.toList_inj.mp (begins.isPrefix.eq_of_length_le also.isPrefix.length_le)

/-- Of two front parts of one scope one is a front part of the other. -/
theorem Begins.comparable (begins : Begins first scope) (also : Begins second scope) :
    Begins first second ∨ Begins second first := by
  simp only [begins_iff_atoms] at *
  rcases begins with rfl | begins
  · exact .inl (.inl rfl)
  rcases also with rfl | also
  · exact .inr (.inl rfl)
  exact (List.prefix_or_prefix_of_prefix begins also).imp .inr .inr

theorem isPartialOrder_covers :
    IsPartialOrder String (fun name scope => coversText name scope = true) where
  refl _ := coversText_iff_begins.mpr (.inr (.inl rfl))
  trans _ _ _ begins also := coversText_iff_begins.mpr
    ((coversText_iff_begins.mp begins).trans (coversText_iff_begins.mp also))
  antisymm _ _ begins also :=
    (coversText_iff_begins.mp begins).antisymm (coversText_iff_begins.mp also)

/-- Covering goes by atoms, for all names and scopes: a name that is not empty covers a scope exactly if its
atoms, empty ones included, are the first atoms of the scope. Covering is a partial order, any two names that
cover one scope are comparable, and the bytes of names tell what covers what. -/
theorem covers_atomwise :
    (∀ name scope, coversText name scope = true ↔ name = "" ∨ atoms name <+: atoms scope) ∧
      IsPartialOrder String (fun name scope => coversText name scope = true) ∧
      (∀ first second scope, coversText first scope = true → coversText second scope = true →
        coversText first second = true ∨ coversText second first = true) ∧
      ∀ name scope, coversText name scope = coversBytes name scope := by
  refine ⟨fun _ _ => coversText_iff_begins.trans begins_iff_atoms, isPartialOrder_covers, ?_,
    coversText_eq_coversBytes⟩
  intro first second scope begins also
  simp only [coversText_iff_begins] at *
  exact begins.comparable also

/-- Empty atoms count: a name that ends with a dot needs an empty atom where it ends. -/
example : atoms "a." = ["a", ""] ∧ coversText "a." "a..b" = true ∧ coversText "a." "a.b" = false := by
  decide

end Scope
end ScopeLexer

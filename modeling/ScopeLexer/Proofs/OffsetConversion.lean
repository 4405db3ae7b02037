import Mathlib.Order.Bounds.Defs
import Mathlib.Order.Monotone.Defs
import ScopeLexer.Proofs.Offsets

/-!
Bytes and characters of a line, measured against the UTF-8 form of its text. A character starts, or the
text ends, exactly at the bytes that divide the text into two texts; going from a byte to a character and
back leads to the last of these that is not behind the byte. Both ways rise with the index and end at the
length in the other unit, and on a text of ASCII characters the shortcut reads what the table holds.
-/
namespace ScopeLexer

theorem byteLength_eq (chars : List Char) : byteLength chars = (String.ofList chars).utf8ByteSize := by
  induction chars with
  | nil => rfl
  | cons c rest ih =>
    rw [byteLength, ih, ← List.singleton_append, String.ofList_append, String.utf8ByteSize_append]
    exact congrArg (· + _) String.utf8ByteSize_singleton.symm

namespace SourceLine

variable {line : SourceLine}

theorem byteSize_eq_utf8ByteSize : line.byteSize = line.text.utf8ByteSize := by
  rw [line.byteSize_eq, byteLength_eq, String.ofList_toList]

/-- The bytes at which the text can be cut are those that divide its UTF-8 form into two texts. -/
theorem isValid_iff_cut {byte : Nat} :
    String.Pos.Raw.IsValid line.text ⟨byte⟩ ↔ line.Cut byte := by
  rw [String.Pos.Raw.isValid_iff_exists_append]
  constructor
  · rintro ⟨front, back, whole, ends⟩
    have same : byte = front.utf8ByteSize := congrArg String.Pos.Raw.byteIdx ends
    have chars : line.text.toList = front.toList ++ back.toList := by rw [whole, String.toList_append]
    refine ⟨front.toList.length, ?_, ?_⟩
    · rw [line.charCount_eq, chars, List.length_append]
      exact Nat.le_add_right _ _
    · rw [line.charToByte_eq, chars, List.take_left, byteLength_eq, String.ofList_toList, same]
  · rintro ⟨index, -, rfl⟩
    refine ⟨String.ofList (line.text.toList.take index), String.ofList (line.text.toList.drop index),
      ?_, ?_⟩
    · rw [← String.ofList_append, List.take_append_drop, String.ofList_toList]
    · rw [line.charToByte_eq, byteLength_eq]
      rfl

variable (line)

/-- The next character starts so many bytes further on as the character has. -/
theorem charToByte_succ {index : Nat} {c : Char} (here : line.text.toList[index]? = some c) :
    line.charToByte (index + 1) = line.charToByte index + c.utf8Size := by
  rw [line.charToByte_eq, line.charToByte_eq, List.take_add_one, here, byteLength_append]
  rfl

theorem charToByte_of_charCount_le {index : Nat} (behind : line.charCount ≤ index) :
    line.charToByte index = line.byteSize := by
  rw [line.charToByte_eq, line.byteSize_eq, List.take_of_length_le]
  rwa [← line.charCount_eq]

theorem monotone_charToByte : Monotone line.charToByte := fun _ _ le => line.charToByte_mono le

theorem byteToChar_le_charCount (byte : Nat) : line.byteToChar byte ≤ line.charCount := by
  by_cases inside : byte < line.byteSize
  · exact Nat.le_of_lt (line.byteToChar_holds inside).1
  · exact Nat.le_of_eq (line.byteToChar_of_byteSize_le (Nat.le_of_not_lt inside))

/-- A character starts at a byte or before it exactly if it is not behind the one that holds the byte. -/
theorem charToByte_le_iff {byte : Nat} (inside : byte < line.byteSize) (index : Nat) :
    line.charToByte index ≤ byte ↔ index ≤ line.byteToChar byte := by
  obtain ⟨-, starts, ends⟩ := line.byteToChar_holds inside
  constructor
  · intro reaches
    by_contra behind
    have : line.charToByte (line.byteToChar byte + 1) ≤ line.charToByte index :=
      line.charToByte_mono (by omega)
    omega
  · exact fun le => Nat.le_trans (line.charToByte_mono le) starts

theorem monotone_byteToChar : Monotone line.byteToChar := by
  intro first last le
  by_cases inside : last < line.byteSize
  · rw [← line.charToByte_le_iff inside]
    exact Nat.le_trans (line.byteToChar_holds (Nat.lt_of_le_of_lt le inside)).2.1 le
  · rw [line.byteToChar_of_byteSize_le (Nat.le_of_not_lt inside)]
    exact line.byteToChar_le_charCount first

/-- Going to the character and back leads to the last byte, not behind the one at hand, at which the text
can be cut. -/
theorem charToByte_byteToChar {byte : Nat} (inside : byte ≤ line.byteSize) :
    IsGreatest {cut | line.Cut cut ∧ cut ≤ byte} (line.charToByte (line.byteToChar byte)) := by
  by_cases atEnd : byte = line.byteSize
  · subst atEnd
    rw [cut_byteSize.charToByte_byteToChar]
    exact ⟨⟨cut_byteSize, Nat.le_refl _⟩, fun cut below => below.2⟩
  · have before := Nat.lt_of_le_of_ne inside atEnd
    refine ⟨⟨cut_charToByte _, (line.byteToChar_holds before).2.1⟩, ?_⟩
    rintro cut ⟨⟨index, -, rfl⟩, reaches⟩
    exact line.charToByte_mono ((line.charToByte_le_iff before index).mp reaches)

/-- Characters and bytes convert into each other. From a character to its byte and back is no change, and
the next character starts after the bytes that the character has in UTF-8. From a byte to its character
and back leads to the last place, not behind the byte, that divides the UTF-8 form into two texts. Both
ways rise, and give the whole length for every index that is out of range. What is read off an ASCII line
directly is what its table holds, in which the search for a byte never ends before the first start. -/
theorem offsets_convert (line : SourceLine) :
    (∀ index ≤ line.charCount, line.byteToChar (line.charToByte index) = index) ∧
    (∀ index c, line.text.toList[index]? = some c →
      line.charToByte (index + 1) - line.charToByte index = c.utf8Size) ∧
    (∀ byte ≤ line.text.utf8ByteSize,
      IsGreatest {cut | String.Pos.Raw.IsValid line.text ⟨cut⟩ ∧ cut ≤ byte}
        (line.charToByte (line.byteToChar byte))) ∧
    Monotone line.charToByte ∧ Monotone line.byteToChar ∧
    (∀ index, line.text.toList.length ≤ index → line.charToByte index = line.text.utf8ByteSize) ∧
    (∀ byte, line.text.utf8ByteSize ≤ byte → line.byteToChar byte = line.text.toList.length) ∧
    (∀ index, line.charToByte index = line.tableCharToByte index) ∧
    (∀ byte, line.byteToChar byte = line.tableByteToChar byte) ∧
    ∀ byte < line.text.utf8ByteSize,
      1 ≤ partitionPoint (fun index => decide (line.starts[index]?.getD line.byteSize ≤ byte)) 0
        line.charCount := by
  rw [← line.charCount_eq, ← line.byteSize_eq_utf8ByteSize]
  refine ⟨fun index bound => line.byteToChar_charToByte bound, ?_, ?_, line.monotone_charToByte,
    line.monotone_byteToChar, fun index => line.charToByte_of_charCount_le,
    fun byte => line.byteToChar_of_byteSize_le, ?_, line.byteToChar_eq,
    fun byte => line.partitionPoint_pos⟩
  · intro index c here
    rw [line.charToByte_succ here, Nat.add_sub_cancel_left]
  · intro byte inside
    simp only [isValid_iff_cut]
    exact line.charToByte_byteToChar inside
  · exact fun index => (line.charToByte_eq index).trans (line.tableCharToByte_eq index).symm

/-- A character of four bytes holds all of them. -/
example : [0, 1, 4, 5, 6, 9].map (SourceLine.ofText 0 "x𝄞y").byteToChar = [0, 1, 1, 2, 3, 3] := by
  decide +kernel

end SourceLine
end ScopeLexer

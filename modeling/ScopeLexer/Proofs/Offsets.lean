import Mathlib.Order.Nat
import ScopeLexer.SourceLine

/-! Bytes and characters of a line. The table of starts holds the lengths in
bytes of the initial parts of the text, an ASCII text is its own table, and the
search in the table undoes the look-up. A byte at which the text can be cut is
one of these lengths; what lies before it is a line of its own whose cuts are
cuts of the whole. -/
namespace ScopeLexer

theorem byteLength_append (front back : List Char) :
    byteLength (front ++ back) = byteLength front + byteLength back := by
  induction front with
  | nil => simp [byteLength]
  | cons c rest ih => simp [byteLength, ih, Nat.add_assoc]

theorem length_le_byteLength (chars : List Char) : chars.length ≤ byteLength chars := by
  induction chars with
  | nil => exact Nat.le_refl 0
  | cons c rest ih =>
    have positive := c.utf8Size_pos
    simp only [List.length_cons, byteLength]
    omega

/-- Taking more characters takes more bytes. -/
theorem byteLength_take_add (chars : List Char) (first more : Nat) :
    byteLength (chars.take (first + more)) =
      byteLength (chars.take first) + byteLength ((chars.drop first).take more) := by
  rw [List.take_add, byteLength_append]

theorem byteLength_take_le {first last : Nat} (chars : List Char) (le : first ≤ last) :
    byteLength (chars.take first) ≤ byteLength (chars.take last) := by
  obtain ⟨more, rfl⟩ := Nat.exists_eq_add_of_le le
  rw [byteLength_take_add]
  exact Nat.le_add_right _ _

theorem byteLength_take_lt {first last : Nat} (chars : List Char) (lt : first < last)
    (bound : last ≤ chars.length) :
    byteLength (chars.take first) < byteLength (chars.take last) := by
  obtain ⟨more, rfl⟩ := Nat.exists_eq_add_of_lt lt
  rw [Nat.add_assoc, byteLength_take_add]
  have taken : ((chars.drop first).take (more + 1)).length = more + 1 := by
    rw [List.length_take, List.length_drop]
    omega
  have held := length_le_byteLength ((chars.drop first).take (more + 1))
  omega

/-- The table of starts lists the lengths of the initial parts. -/
theorem getElem?_byteStarts (offset : Nat) (chars : List Char) (index : Nat) :
    (byteStarts offset chars)[index]? =
      if index < chars.length then some (offset + byteLength (chars.take index)) else none := by
  induction chars generalizing offset index with
  | nil => simp [byteStarts]
  | cons c rest ih =>
    cases index with
    | zero => simp [byteStarts, byteLength]
    | succ index =>
      simp only [byteStarts, List.getElem?_cons_succ, ih, List.length_cons, Nat.add_lt_add_iff_right,
        List.take_succ_cons, byteLength, Nat.add_assoc]

private theorem utf8Size_ascii {c : Char} (ascii : c.val < 0x80) : c.utf8Size = 1 := by
  unfold Char.utf8Size
  have small : c.val ≤ 0x7f := by
    simp only [UInt32.lt_iff_toNat_lt, UInt32.le_iff_toNat_le] at ascii ⊢
    exact Nat.le_of_lt_succ ascii
  simp [small]

theorem byteLength_ascii {chars : List Char} (ascii : chars.all (·.val < 0x80) = true) :
    byteLength chars = chars.length := by
  induction chars with
  | nil => rfl
  | cons c rest ih =>
    simp only [List.all_cons, Bool.and_eq_true, decide_eq_true_eq] at ascii
    simp only [byteLength, List.length_cons, utf8Size_ascii ascii.1, ih ascii.2]
    omega

/-- The search ends between those that hold and those that do not. -/
theorem partitionPoint_between {holds : Nat → Bool} (ordered : low ≤ high)
    (down : ∀ first last, first ≤ last → holds last = true → holds first = true) :
    let point := partitionPoint holds low high
    low ≤ point ∧ point ≤ high ∧ (∀ index, low ≤ index → index < point → holds index = true) ∧
      ∀ index, point ≤ index → index < high → holds index = false := by
  fun_induction partitionPoint holds low high with
  | case1 low high lt middle held ih =>
    obtain ⟨lower, upper, before, after⟩ := ih (by omega)
    refine ⟨by omega, upper, fun index le lt => ?_, after⟩
    by_cases early : index ≤ middle
    · exact down index middle early held
    · exact before index (by omega) lt
  | case2 low high lt middle failed ih =>
    obtain ⟨lower, upper, before, after⟩ := ih (by omega)
    refine ⟨lower, by omega, before, fun index le lt => ?_⟩
    by_cases late : middle ≤ index
    · cases held : holds index with
      | false => rfl
      | true => exact absurd (down middle index late held) failed
    · exact after index le (by omega)
  | case3 low high done =>
    exact ⟨Nat.le_refl low, ordered, fun index le lt => by omega, fun index le lt => by omega⟩

namespace SourceLine

variable (line : SourceLine)

theorem charCount_eq : line.charCount = line.text.toList.length := by
  rw [charCount, line.chars_eq, List.size_toArray]

theorem tableCharToByte_eq (index : Nat) :
    line.tableCharToByte index = byteLength (line.text.toList.take index) := by
  rw [tableCharToByte, line.starts_eq, List.getElem?_toArray, getElem?_byteStarts]
  split
  · simp
  · rw [List.take_of_length_le (by omega), line.byteSize_eq, Option.getD_none]

/-- On an ASCII line the shortcut reads what the table holds. -/
theorem charToByte_eq (index : Nat) :
    line.charToByte index = byteLength (line.text.toList.take index) := by
  unfold charToByte
  split
  next ascii =>
    rw [line.isAscii_eq] at ascii
    have frontAscii : (line.text.toList.take index).all (·.val < 0x80) = true := by
      rw [List.all_eq_true] at ascii ⊢
      exact fun c member => ascii c (List.mem_of_mem_take member)
    rw [byteLength_ascii frontAscii, List.length_take, line.byteSize_eq, byteLength_ascii ascii]
  next => exact line.tableCharToByte_eq index

theorem byteSize_eq_charToByte : line.byteSize = line.charToByte line.charCount := by
  rw [line.charToByte_eq, line.charCount_eq, List.take_length, line.byteSize_eq]

@[simp]
theorem charToByte_zero : line.charToByte 0 = 0 := by
  rw [line.charToByte_eq]
  rfl

theorem charToByte_mono {first last : Nat} (le : first ≤ last) :
    line.charToByte first ≤ line.charToByte last := by
  rw [line.charToByte_eq, line.charToByte_eq]
  exact byteLength_take_le _ le

theorem charToByte_strictMono {first last : Nat} (lt : first < last) (bound : last ≤ line.charCount) :
    line.charToByte first < line.charToByte last := by
  rw [line.charToByte_eq, line.charToByte_eq]
  exact byteLength_take_lt _ lt (by rwa [line.charCount_eq] at bound)

theorem charToByte_le_byteSize (index : Nat) : line.charToByte index ≤ line.byteSize := by
  rw [line.charToByte_eq, line.byteSize_eq]
  calc byteLength (line.text.toList.take index)
      ≤ byteLength (line.text.toList.take (max index line.text.toList.length)) :=
        byteLength_take_le _ (Nat.le_max_left _ _)
    _ = byteLength line.text.toList := by rw [List.take_of_length_le (Nat.le_max_right _ _)]

theorem byteSize_of_isAscii (ascii : line.isAscii = true) : line.byteSize = line.charCount := by
  rw [line.byteSize_eq, line.charCount_eq]
  exact byteLength_ascii (by rw [← line.isAscii_eq, ascii])

theorem getD_starts (index : Nat) :
    line.starts[index]?.getD line.byteSize = line.charToByte index := by
  rw [line.charToByte_eq, ← line.tableCharToByte_eq]
  rfl

private theorem starts_down (byte first last : Nat) (le : first ≤ last)
    (holds : decide (line.charToByte last ≤ byte) = true) :
    decide (line.charToByte first ≤ byte) = true := by
  rw [decide_eq_true_iff] at holds ⊢
  exact Nat.le_trans (line.charToByte_mono le) holds

/-- The search for a byte inside the text passes at least the first start in the table. -/
theorem partitionPoint_pos {byte : Nat} (inside : byte < line.byteSize) :
    0 < partitionPoint (fun index => decide (line.starts[index]?.getD line.byteSize ≤ byte)) 0
      line.charCount := by
  simp only [getD_starts]
  by_contra start
  have after := (partitionPoint_between (Nat.zero_le line.charCount) (line.starts_down byte)).2.2.2
  have ends := line.byteSize_eq_charToByte
  by_cases empty : line.charCount = 0
  · rw [empty, charToByte_zero] at ends
    omega
  · have := after 0 (by omega) (by omega)
    simp at this

/-- The table leads from a byte to the character that holds it. -/
theorem tableByteToChar_holds {byte : Nat} (inside : byte < line.byteSize) :
    line.tableByteToChar byte < line.charCount ∧
      line.charToByte (line.tableByteToChar byte) ≤ byte ∧
      byte < line.charToByte (line.tableByteToChar byte + 1) := by
  have between := partitionPoint_between (Nat.zero_le line.charCount) (line.starts_down byte)
  have positive := line.partitionPoint_pos inside
  simp only [tableByteToChar, getD_starts, if_neg (Nat.not_le.mpr inside)] at positive ⊢
  generalize partitionPoint (fun index => decide (line.charToByte index ≤ byte)) 0
    line.charCount = point at between positive ⊢
  simp only [decide_eq_true_iff, decide_eq_false_iff_not, Nat.not_le] at between
  obtain ⟨-, upper, before, after⟩ := between
  refine ⟨by omega, before (point - 1) (Nat.zero_le _) (by omega), ?_⟩
  rw [Nat.sub_add_cancel positive]
  by_cases last : point < line.charCount
  · exact after point (Nat.le_refl _) last
  · have same : point = line.charCount := by omega
    rwa [same, ← line.byteSize_eq_charToByte]

theorem tableByteToChar_of_byteSize_le {byte : Nat} (behind : line.byteSize ≤ byte) :
    line.tableByteToChar byte = line.charCount := by
  rw [tableByteToChar, if_pos behind]

/-- On an ASCII line the shortcut finds what the search in the table finds. -/
theorem byteToChar_eq (byte : Nat) : line.byteToChar byte = line.tableByteToChar byte := by
  unfold byteToChar
  split
  next ascii =>
    have whole := line.byteSize_of_isAscii ascii
    by_cases inside : byte < line.byteSize
    · have held := line.tableByteToChar_holds inside
      simp only [charToByte, ascii, if_true] at held
      omega
    · have behind := Nat.le_of_not_lt inside
      rw [line.tableByteToChar_of_byteSize_le behind, Nat.min_eq_right behind, whole]
  next => rfl

/-- The character that holds a byte is the last that starts at it or before it. -/
theorem byteToChar_holds {byte : Nat} (inside : byte < line.byteSize) :
    line.byteToChar byte < line.charCount ∧ line.charToByte (line.byteToChar byte) ≤ byte ∧
      byte < line.charToByte (line.byteToChar byte + 1) := by
  rw [line.byteToChar_eq]
  exact line.tableByteToChar_holds inside

theorem byteToChar_of_byteSize_le {byte : Nat} (behind : line.byteSize ≤ byte) :
    line.byteToChar byte = line.charCount := by
  rw [line.byteToChar_eq, line.tableByteToChar_of_byteSize_le behind]

/-- Going to bytes and back leads to the same character. -/
theorem byteToChar_charToByte {index : Nat} (bound : index ≤ line.charCount) :
    line.byteToChar (line.charToByte index) = index := by
  by_cases atEnd : index = line.charCount
  · subst atEnd
    rw [← line.byteSize_eq_charToByte, line.byteToChar_of_byteSize_le (Nat.le_refl _)]
  · have before : line.charToByte index < line.byteSize := by
      rw [line.byteSize_eq_charToByte]
      exact line.charToByte_strictMono (by omega) (Nat.le_refl _)
    obtain ⟨held, starts, ends⟩ := line.byteToChar_holds before
    -- Another index would start no later than the byte and end after it as well.
    by_contra other
    by_cases early : line.byteToChar (line.charToByte index) < index
    · have : line.charToByte (line.byteToChar (line.charToByte index) + 1) ≤ line.charToByte index :=
        line.charToByte_mono early
      omega
    · have := line.charToByte_strictMono (Nat.lt_of_le_of_ne (by omega) (Ne.symm other))
        (Nat.le_of_lt held)
      omega

/-- A byte at which the text can be cut: a character starts there, or the text ends. -/
def Cut (byte : Nat) : Prop := ∃ index ≤ line.charCount, line.charToByte index = byte

variable {line}

theorem cut_charToByte (index : Nat) : line.Cut (line.charToByte index) := by
  by_cases inside : index ≤ line.charCount
  · exact ⟨index, inside, rfl⟩
  · refine ⟨line.charCount, Nat.le_refl _, ?_⟩
    rw [line.charToByte_eq, line.charToByte_eq, List.take_of_length_le, List.take_of_length_le]
    · rw [line.charCount_eq] at inside
      omega
    · exact Nat.le_of_eq line.charCount_eq.symm

theorem cut_zero : line.Cut 0 := ⟨0, Nat.zero_le _, line.charToByte_zero⟩

theorem cut_byteSize : line.Cut line.byteSize :=
  ⟨line.charCount, Nat.le_refl _, line.byteSize_eq_charToByte.symm⟩

theorem Cut.le_byteSize (cut : line.Cut byte) : byte ≤ line.byteSize := by
  obtain ⟨index, _, rfl⟩ := cut
  exact line.charToByte_le_byteSize index

theorem Cut.charToByte_byteToChar (cut : line.Cut byte) :
    line.charToByte (line.byteToChar byte) = byte := by
  obtain ⟨index, bound, rfl⟩ := cut
  rw [line.byteToChar_charToByte bound]

/-- Characters follow one another as the bytes at which they start do. -/
theorem Cut.byteToChar_lt (first : line.Cut low) (last : line.Cut high) (lt : low < high) :
    line.byteToChar low < line.byteToChar high := by
  obtain ⟨lowIndex, lowBound, rfl⟩ := first
  obtain ⟨highIndex, highBound, rfl⟩ := last
  rw [line.byteToChar_charToByte lowBound, line.byteToChar_charToByte highBound]
  by_cases le : highIndex ≤ lowIndex
  · have := line.charToByte_mono le
    omega
  · omega

theorem byteToChar_zero : line.byteToChar 0 = 0 := by
  have start := line.byteToChar_charToByte (Nat.zero_le line.charCount)
  rwa [line.charToByte_zero] at start

theorem toList_upTo (line : SourceLine) (byte id : Nat) :
    (line.upTo byte id).text.toList = line.text.toList.take (line.byteToChar byte) := by
  simp [upTo, ofText, line.chars_eq]

/-- The part of a line before a byte can be cut only where the line can. -/
theorem cut_of_cut_upTo {id : Nat} (cut : (line.upTo stop id).Cut byte) : line.Cut byte := by
  obtain ⟨index, bound, rfl⟩ := cut
  rw [charToByte_eq, toList_upTo, List.take_take, ← line.charToByte_eq]
  exact cut_charToByte _

end SourceLine
end ScopeLexer

import SourceEditor.Syntax.Node
import SourceEditor.Text.Offset
import Mathlib.Data.List.Basic

/-!
# Places in a text

A place in a text is given by the number of characters before it, or by the number of bytes.
`byteLength (text.take i)` goes from the first to the second. It keeps the order of places
(`byteLength_take_le_iff`), and the byte index of the text leads back (`ByteIndex.get_ofText`). The
program counts character by character (`byteOffset_eq`), and cuts a text at bytes (`cutAt_of_le`).

What lies between two places is a slice of the characters or a slice of the bytes, and both are the
same text (`slice_utf8`).
-/

namespace SourceEditor

/-! ## Slices -/

namespace Span

variable {α : Type} {i j k : Nat}

theorem slice_self (i : Nat) (xs : List α) : slice ⟨i, i⟩ xs = [] := by
  simp [slice]

theorem slice_zero (k : Nat) (xs : List α) : slice ⟨0, k⟩ xs = xs.take k := by
  simp [slice]

theorem slice_append_slice (hij : i ≤ j) (hjk : j ≤ k) (xs : List α) :
    slice ⟨i, j⟩ xs ++ slice ⟨j, k⟩ xs = slice ⟨i, k⟩ xs := by
  have hcount : k - i = (j - i) + (k - j) := by omega
  have hplace : i + (j - i) = j := by omega
  simp only [slice]
  rw [hcount, List.take_add, List.drop_drop, hplace]

theorem take_append_slice (h : i ≤ k) (xs : List α) : xs.take i ++ slice ⟨i, k⟩ xs = xs.take k := by
  rw [← slice_zero, slice_append_slice (Nat.zero_le i) h, slice_zero]

theorem length_slice {xs : List α} (hk : k ≤ xs.length) : (slice ⟨i, k⟩ xs).length = k - i := by
  simp only [slice, List.length_take, List.length_drop]
  omega

/-- A slice is what stands between a front and a back. -/
theorem slice_append (front mid back : List α) :
    slice ⟨front.length, front.length + mid.length⟩ (front ++ mid ++ back) = mid := by
  simp [slice, List.append_assoc]

end Span

/-! ## Bytes -/

@[simp]
theorem byteLength_append (front back : List Char) :
    byteLength (front ++ back) = byteLength front + byteLength back := by
  induction front with
  | nil => simp [byteLength]
  | cons c cs ih =>
    simp only [List.cons_append, byteLength, ih]
    omega

theorem byteLength_le (text : List Char) : byteLength text ≤ 4 * text.length := by
  induction text with
  | nil => exact Nat.le_refl 0
  | cons c cs ih =>
    have := c.utf8Size_le_four
    rw [byteLength, List.length_cons]
    omega

/-- Counting in bytes keeps the order of places. -/
theorem byteLength_take_le_iff {text : List Char} {i k : Nat} (hi : i ≤ text.length) :
    byteLength (text.take i) ≤ byteLength (text.take k) ↔ i ≤ k := by
  induction text generalizing i k with
  | nil =>
    obtain rfl : i = 0 := by simpa using hi
    simp
  | cons c cs ih =>
    have hpos := c.utf8Size_pos
    cases i with
    | zero => simp [byteLength]
    | succ i =>
      cases k with
      | zero =>
        simp only [List.take_succ_cons, List.take_zero, byteLength]
        omega
      | succ k =>
        simp only [List.take_succ_cons, byteLength, Nat.add_le_add_iff_left,
          Nat.add_le_add_iff_right]
        exact ih (Nat.le_of_succ_le_succ hi)

/-- How many characters of a text start before a byte. -/
def charsBefore : List Char → Nat → Nat
  | [], _ => 0
  | c :: cs, byte => if byte = 0 then 0 else 1 + charsBefore cs (byte - c.utf8Size)

/-- Counting the characters before a place leads back from bytes. -/
theorem charsBefore_byteLength {text : List Char} {i : Nat} (h : i ≤ text.length) :
    charsBefore text (byteLength (text.take i)) = i := by
  induction text generalizing i with
  | nil => exact (Nat.le_zero.mp h).symm
  | cons c cs ih =>
    have hpos := c.utf8Size_pos
    cases i with
    | zero => rfl
    | succ i =>
      rw [List.take_succ_cons, byteLength, charsBefore, if_neg (by omega), Nat.add_sub_cancel_left,
        ih (Nat.le_of_succ_le_succ h), Nat.add_comm]

/-- A slice takes up the bytes between its two ends. -/
theorem byteLength_take_add_slice {text : List Char} {i k : Nat} (h : i ≤ k) :
    byteLength (text.take i) + byteLength (Span.slice ⟨i, k⟩ text) = byteLength (text.take k) := by
  rw [← byteLength_append, Span.take_append_slice h]

theorem getElem?_byteStarts (start : Nat) (text : List Char) (i : Nat) :
    (byteStarts start text)[i]? =
      if i < text.length then some (start + byteLength (text.take i)) else none := by
  induction text generalizing start i with
  | nil => rfl
  | cons c cs ih =>
    cases i with
    | zero => rfl
    | succ i =>
      simp only [byteStarts, List.getElem?_cons_succ, ih, List.length_cons,
        Nat.add_lt_add_iff_right, List.take_succ_cons, byteLength, Nat.add_assoc]

/-- Counting character by character comes to the bytes of the characters in front. -/
theorem byteOffset_eq (text : List Char) (i : Nat) :
    byteOffset text i =
      if i ≤ text.length then .ok (byteLength (text.take i))
      else .error (.offsetOutOfBounds i text.length) := by
  rw [byteOffset, getElem?_byteStarts, Nat.zero_add]
  by_cases hzero : i = 0
  · subst hzero
    rfl
  rw [if_neg hzero]
  rcases Nat.lt_trichotomy i text.length with hlt | rfl | hgt
  · rw [if_pos hlt, if_pos (Nat.le_of_lt hlt)]
  · simp
  · simp only [if_neg (Nat.lt_asymm hgt), if_neg (Nat.ne_of_gt hgt), if_neg (Nat.not_le.mpr hgt)]

theorem byteOffset_of_le {text : List Char} {i : Nat} (h : i ≤ text.length) :
    byteOffset text i = .ok (byteLength (text.take i)) := by
  rw [byteOffset_eq, if_pos h]

theorem byteOffset_of_lt {text : List Char} {i : Nat} (h : text.length < i) :
    byteOffset text i = .error (.offsetOutOfBounds i text.length) := by
  rw [byteOffset_eq, if_neg (Nat.not_le.mpr h)]

theorem cutAtByte_append (front back : List Char) :
    cutAtByte (front ++ back) (byteLength front) = .ok (front, back) := by
  induction front with
  | nil => rw [byteLength, List.nil_append, cutAtByte]
  | cons c cs ih =>
    have hpos := c.utf8Size_pos
    obtain ⟨byte, hbyte⟩ : ∃ byte, byteLength (c :: cs) = byte + 1 := ⟨_, (Nat.succ_pred_eq_of_pos
      (Nat.add_pos_left hpos _)).symm⟩
    have hfits : c.utf8Size ≤ byte + 1 := hbyte ▸ Nat.le_add_right _ _
    have hrest : byte + 1 - c.utf8Size = byteLength cs := by
      rw [← hbyte, byteLength, Nat.add_sub_cancel_left]
    rw [hbyte, List.cons_append, cutAtByte, if_pos hfits, hrest, ih]
    rfl

/-- A text is cut between the characters that an offset lies between. -/
theorem cutAt_of_le {text : List Char} {i : Nat} (h : i ≤ text.length) :
    cutAt text i = .ok (text.take i, text.drop i) := by
  have hcut := cutAtByte_append (text.take i) (text.drop i)
  rw [List.take_append_drop] at hcut
  rw [cutAt, byteOffset_of_le h]
  exact hcut

theorem cutAt_of_lt {text : List Char} {i : Nat} (h : text.length < i) :
    cutAt text i = .error (.offsetOutOfBounds i text.length) := by
  rw [cutAt, byteOffset_of_lt h]
  rfl

namespace ByteIndex

theorem getElem?_offsets (start : Nat) {text : List Char} {i : Nat} (h : i ≤ text.length) :
    (offsets start text)[byteLength (text.take i)]? = some (start + i) := by
  induction text generalizing start i with
  | nil =>
    obtain rfl : i = 0 := by simpa using h
    simp [offsets, byteLength]
  | cons c cs ih =>
    have hpos := c.utf8Size_pos
    cases i with
    | zero =>
      have hfirst : 0 < (List.replicate c.utf8Size start).length := by simpa using hpos
      rw [offsets, List.take_zero, byteLength, List.getElem?_append_left hfirst,
        List.getElem?_replicate_of_lt hpos]
      rfl
    | succ i =>
      have hle : (List.replicate c.utf8Size start).length ≤
          byteLength ((c :: cs).take (i + 1)) := by
        simp [byteLength]
      rw [offsets, List.getElem?_append_right hle, List.take_succ_cons, byteLength,
        List.length_replicate, Nat.add_sub_cancel_left, ih (start + 1) (Nat.le_of_succ_le_succ h)]
      congr 1
      omega

/-- The index of a text finds the character that a byte offset stands at. -/
theorem get_ofText {text : List Char} {i : Nat} (h : i ≤ text.length) :
    (ofText text).get (byteLength (text.take i)) = i := by
  simp [get, ofText, getElem?_offsets 0 h]

end ByteIndex

/-- The bytes of a text. -/
def utf8 (text : List Char) : List UInt8 := text.flatMap String.utf8EncodeChar

theorem utf8_append (front back : List Char) : utf8 (front ++ back) = utf8 front ++ utf8 back :=
  List.flatMap_append

@[simp]
theorem length_utf8 (text : List Char) : (utf8 text).length = byteLength text := by
  induction text with
  | nil => rfl
  | cons c cs ih =>
    rw [utf8, List.flatMap_cons, List.length_append, String.length_utf8EncodeChar, byteLength, ← ih,
      utf8]

/-- The bytes of a text, cut at a place. -/
theorem utf8_eq_append (text : List Char) (i : Nat) :
    utf8 text = utf8 (text.take i) ++ utf8 (text.drop i) := by
  rw [← utf8_append, List.take_append_drop]

theorem utf8_take (text : List Char) (i : Nat) :
    utf8 (text.take i) = (utf8 text).take (byteLength (text.take i)) := by
  rw [utf8_eq_append text i, List.take_left' (length_utf8 _)]

theorem utf8_drop (text : List Char) (i : Nat) :
    utf8 (text.drop i) = (utf8 text).drop (byteLength (text.take i)) := by
  rw [utf8_eq_append text i, List.drop_left' (length_utf8 _)]

/-- The bytes between two places are those of the characters between them. -/
theorem slice_utf8 {text : List Char} {i k : Nat} (h : i ≤ k) :
    Span.slice ⟨byteLength (text.take i), byteLength (text.take k)⟩ (utf8 text) =
      utf8 (Span.slice ⟨i, k⟩ text) := by
  have hsplit : utf8 text =
      utf8 (text.take i) ++ utf8 (Span.slice ⟨i, k⟩ text) ++ utf8 (text.drop k) := by
    rw [← utf8_append, Span.take_append_slice h, ← utf8_append, List.take_append_drop]
  rw [hsplit, ← byteLength_take_add_slice h, ← length_utf8, ← length_utf8, Span.slice_append]

end SourceEditor

import SourceEditor.Proofs.Text.Offset
import Mathlib.Order.Monotone.Basic

/-!
# The connection between characters and bytes

Going from character offsets to byte offsets and going back are adjoint: the character at `n` starts
at or before a byte exactly if the byte index of the text has reached `n` there
(`ByteIndex.byteLength_take_le_iff_le_get`). The proof is by induction on the text, where the index
of a text is that of its first character followed by that of the rest.

With the bound `ByteIndex.get_le` it follows that the index is monotone, that it undoes the way to
bytes, and that all bytes of a character have its offset. `offsets_connected` puts this together.
-/

namespace SourceEditor

namespace ByteIndex

/-! ## The index of a text, character by character -/

/-- The entry of a byte among the bytes of a text whose first character has offset `start`, and the
offset of the end past them. -/
def entry (start : Nat) (text : List Char) (byte : Nat) : Nat :=
  (offsets start text)[byte]?.getD (start + text.length)

theorem getLast?_offsets (start : Nat) (text : List Char) :
    (offsets start text).getLast? = some (start + text.length) := by
  induction text generalizing start with
  | nil => rfl
  | cons c cs ih =>
    rw [offsets, List.getLast?_append, ih, Option.some_or, List.length_cons, Nat.add_right_comm,
      Nat.add_assoc]

theorem get_eq_entry (text : List Char) (byte : Nat) :
    (ofText text).get byte = entry 0 text byte := by
  simp [get, ofText, entry, getLast?_offsets]

theorem entry_nil (start byte : Nat) : entry start [] byte = start := by
  cases byte <;> rfl

/-- The bytes of the first character have its offset. -/
theorem entry_cons_of_lt (start : Nat) {c : Char} (cs : List Char) {byte : Nat}
    (h : byte < c.utf8Size) : entry start (c :: cs) byte = start := by
  have hfirst : byte < (List.replicate c.utf8Size start).length := by simpa using h
  rw [entry, offsets, List.getElem?_append_left hfirst, List.getElem?_replicate_of_lt h]
  rfl

/-- After the first character the index is that of the rest. -/
theorem entry_cons_of_le (start : Nat) {c : Char} (cs : List Char) {byte : Nat}
    (h : c.utf8Size ≤ byte) :
    entry start (c :: cs) byte = entry (start + 1) cs (byte - c.utf8Size) := by
  have hrest : (List.replicate c.utf8Size start).length ≤ byte := by simpa using h
  rw [entry, offsets, List.getElem?_append_right hrest, List.length_replicate, List.length_cons,
    ← Nat.add_assoc, Nat.add_right_comm, entry]

theorem entry_le (start : Nat) (text : List Char) (byte : Nat) :
    entry start text byte ≤ start + text.length := by
  induction text generalizing start byte with
  | nil => exact (entry_nil start byte).le
  | cons c cs ih =>
    rcases Nat.lt_or_ge byte c.utf8Size with h | h
    · rw [entry_cons_of_lt start cs h]
      exact Nat.le_add_right _ _
    · have := ih (start + 1) (byte - c.utf8Size)
      rw [entry_cons_of_le start cs h, List.length_cons]
      omega

theorem byteLength_take_le_iff_le_entry (start : Nat) {text : List Char} {n : Nat}
    (hn : n ≤ text.length) (byte : Nat) :
    byteLength (text.take n) ≤ byte ↔ start + n ≤ entry start text byte := by
  induction text generalizing start n byte with
  | nil =>
    obtain rfl : n = 0 := by simpa using hn
    simp [byteLength, entry_nil]
  | cons c cs ih =>
    rcases Nat.lt_or_ge byte c.utf8Size with h | h
    · rw [entry_cons_of_lt start cs h]
      cases n with
      | zero => simp [byteLength]
      | succ n =>
        rw [List.take_succ_cons, byteLength]
        omega
    · rw [entry_cons_of_le start cs h]
      cases n with
      | zero =>
        -- the rest of the index starts after the first character
        have := (ih (start + 1) (Nat.zero_le _) (byte - c.utf8Size)).mp (by simp [byteLength])
        simp only [List.take_zero, byteLength, Nat.zero_le, true_iff]
        omega
      | succ n =>
        have := ih (start + 1) (Nat.le_of_succ_le_succ hn) (byte - c.utf8Size)
        rw [List.take_succ_cons, byteLength]
        omega

/-! ## The connection -/

variable {text : List Char} {n : Nat}

/-- **The two directions are adjoint.** -/
theorem byteLength_take_le_iff_le_get (hn : n ≤ text.length) (byte : Nat) :
    byteLength (text.take n) ≤ byte ↔ n ≤ (ofText text).get byte := by
  rw [get_eq_entry, byteLength_take_le_iff_le_entry 0 hn, Nat.zero_add]

theorem get_le (text : List Char) (byte : Nat) : (ofText text).get byte ≤ text.length := by
  rw [get_eq_entry]
  exact (entry_le 0 text byte).trans_eq (Nat.zero_add _)

/-- The character of a byte starts at or before it. -/
theorem byteLength_take_get_le (text : List Char) (byte : Nat) :
    byteLength (text.take ((ofText text).get byte)) ≤ byte :=
  (byteLength_take_le_iff_le_get (get_le text byte) byte).mpr (Nat.le_refl _)

theorem get_mono (text : List Char) : Monotone (ofText text).get := fun byte byte' h =>
  (byteLength_take_le_iff_le_get (get_le text byte) byte').mp
    ((byteLength_take_get_le text byte).trans h)

theorem get_eq_length_iff (text : List Char) (byte : Nat) :
    (ofText text).get byte = text.length ↔ byteLength text ≤ byte := by
  have hend := byteLength_take_le_iff_le_get (Nat.le_refl text.length) byte
  rw [List.take_length] at hend
  exact ⟨fun h => hend.mpr h.ge, fun h => Nat.le_antisymm (get_le text byte) (hend.mp h)⟩

/-- Every byte of a character has the offset of the character. -/
theorem get_add_of_lt {c : Char} (hc : text[n]? = some c) {k : Nat} (hk : k < c.utf8Size) :
    (ofText text).get (byteLength (text.take n) + k) = n := by
  have hlt : n < text.length := (List.getElem?_eq_some_iff.mp hc).1
  have hnext : byteLength (text.take (n + 1)) = byteLength (text.take n) + c.utf8Size := by
    rw [List.take_add_one, hc, byteLength_append]
    rfl
  have hreached := (byteLength_take_le_iff_le_get hlt.le _).mp (Nat.le_add_right _ k)
  have hnot : ¬ n + 1 ≤ (ofText text).get (byteLength (text.take n) + k) := by
    rw [← byteLength_take_le_iff_le_get hlt, hnext]
    omega
  omega

end ByteIndex

/-- What is known of the byte at which the character with offset `n` starts, where `get` leads from
bytes back to characters. The end of the text counts as a character of no bytes. -/
structure StartsAt (text : List Char) (get : Nat → Nat) (n start : Nat) : Prop where
  le_iff : ∀ byte, start ≤ byte ↔ n ≤ get byte
  get_start : get start = n
  get_inside : ∀ c ∈ text[n]?, ∀ k < c.utf8Size, get (start + k) = n

/-- The two directions between characters and bytes belong together. -/
structure OffsetsConnected (text : List Char) : Prop where
  exists_start : ∀ n ≤ text.length, ∃ start, byteOffset text n = .ok start ∧
    StartsAt text (ByteIndex.ofText text).get n start
  monotone : Monotone (ByteIndex.ofText text).get
  le_length : ∀ byte, (ByteIndex.ofText text).get byte ≤ text.length
  eq_length_iff : ∀ byte, (ByteIndex.ofText text).get byte = text.length ↔ byteLength text ≤ byte
  fails_iff : ∀ n, (∃ fault, byteOffset text n = .error fault) ↔ text.length < n

/-- **Characters and bytes form a Galois connection**, in every text. -/
theorem offsets_connected (text : List Char) : OffsetsConnected text where
  exists_start n hn :=
    ⟨byteLength (text.take n), byteOffset_of_le hn, ByteIndex.byteLength_take_le_iff_le_get hn,
      ByteIndex.get_ofText hn, fun _ hc _ hk => ByteIndex.get_add_of_lt hc hk⟩
  monotone := ByteIndex.get_mono text
  le_length := ByteIndex.get_le text
  eq_length_iff := ByteIndex.get_eq_length_iff text
  fails_iff n := by
    rcases Nat.lt_or_ge text.length n with h | h
    · exact iff_of_true ⟨_, byteOffset_of_lt h⟩ h
    · refine iff_of_false ?_ (Nat.not_lt.mpr h)
      rw [byteOffset_of_le h]
      rintro ⟨fault, hfault⟩
      cases hfault

example : (List.range 7).map (ByteIndex.ofText ['a', '「', 'b']).get = [0, 1, 1, 1, 2, 3, 3] := by
  decide

end SourceEditor

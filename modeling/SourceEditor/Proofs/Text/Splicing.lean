import SourceEditor.Proofs.Text.Offset
import SourceEditor.Proofs.Update
import SourceEditor.Text.Buffer

/-!
# What buffers cut out and put in

The operations of a buffer count bytes and cut its text there. As long as the number of characters
beside the text is right, they complete inside the text: `Buffer.inserted` and `Buffer.removed` are
what an insertion and a removal leave, and a slice is what stands between two offsets. Outside of
the text they fail and leave the buffer as it is.
-/

namespace SourceEditor.Buffer

/-- The buffer with text inserted at an offset. -/
def inserted (b : Buffer) (offset : Nat) (text : List Char) : Buffer where
  text := b.text.take offset ++ text ++ b.text.drop offset
  length := b.length + text.length
  caret := caretAfterInsert b.caret offset text.length

/-- The buffer without `count` characters at an offset. -/
def removed (b : Buffer) (offset count : Nat) : Buffer where
  text := b.text.take offset ++ b.text.drop (offset + count)
  length := b.length - count
  caret := caretAfterRemove b.caret offset count

variable {b : Buffer} {offset count start stop : Nat}

theorem setCaret_of_le {caret : Nat} (h : caret ≤ b.length) :
    setCaret caret b = .ok () { b with caret } := by
  rw [setCaret, Update.get_bind, if_pos h, Update.set_apply]

theorem setCaret_of_lt {caret : Nat} (h : b.length < caret) :
    setCaret caret b = .error (.caretOutOfBounds caret b.length) b := by
  rw [setCaret, Update.get_bind, if_neg (by omega), Update.throw_apply]

theorem insert_of_le (hlength : b.length = b.text.length) (h : offset ≤ b.length)
    (text : List Char) : insert offset text b = .ok () (b.inserted offset text) := by
  rw [insert, Update.get_bind, if_pos h, cutAt_of_le (hlength ▸ h)]
  rfl

theorem insert_of_lt (h : b.length < offset) (text : List Char) :
    insert offset text b = .error (.insertOutOfBounds offset b.length) b := by
  rw [insert, Update.get_bind, if_neg (by omega), Update.throw_apply]

theorem remove_of_le (hlength : b.length = b.text.length) (h : offset + count ≤ b.length) :
    remove offset count b =
      .ok ((b.text.drop offset).take count) (b.removed offset count) := by
  have hrest : count ≤ (b.text.drop offset).length := by
    rw [List.length_drop]
    omega
  rw [remove, Update.get_bind, Update.bind_of_ok (Update.rangeStop_of_le h b), if_pos h,
    cutAt_of_le (by omega), removed, ← List.drop_drop]
  change ((Update.ofExcept (cutAt (b.text.drop offset) count) : Update Buffer _) >>= _) b = _
  rw [cutAt_of_le hrest]
  rfl

theorem remove_of_lt (h : b.length < offset + count) :
    ∃ fault, remove offset count b = .error fault b := by
  rw [remove, Update.get_bind]
  obtain ⟨-, hoverflow⟩ | hstop := Update.rangeStop_cases offset count b.length b
  · exact ⟨_, Update.bind_of_error hoverflow⟩
  · rw [Update.bind_of_ok hstop, if_neg (by omega)]
    exact ⟨_, rfl⟩

/-- A slice inside the text. -/
theorem slice_of_le (h : start ≤ stop) (hstop : stop ≤ b.text.length) :
    b.slice start stop = .ok ((b.text.drop start).take (stop - start)) := by
  have hrest : stop - start ≤ (b.text.drop start).length := by
    rw [List.length_drop]
    omega
  rw [slice, cutAt_of_le (Nat.le_trans h hstop)]
  simp only [bind, Except.bind, if_neg (Nat.not_lt.mpr h), cutAt_of_le hrest]
  rfl

theorem slice_of_length_lt (h : b.text.length < start) (stop : Nat) :
    ∃ fault, b.slice start stop = .error fault := by
  rw [slice, cutAt_of_lt h]
  exact ⟨_, rfl⟩

/-- A slice that reaches past the end of the text is a fault. -/
theorem slice_of_lt (h : start ≤ stop) (hstop : b.text.length < stop) :
    ∃ fault, b.slice start stop = .error fault := by
  rcases Nat.lt_or_ge b.text.length start with hlt | hle
  · exact slice_of_length_lt hlt stop
  · have hrest : (b.text.drop start).length < stop - start := by
      rw [List.length_drop]
      omega
    rw [slice, cutAt_of_le hle]
    simp only [bind, Except.bind, if_neg (Nat.not_lt.mpr h), cutAt_of_lt hrest]
    exact ⟨_, rfl⟩

/-- A slice that stops before it starts is a fault. -/
theorem slice_of_inverted (h : stop < start) : ∃ fault, b.slice start stop = .error fault := by
  rcases Nat.lt_or_ge b.text.length start with hlt | hle
  · exact slice_of_length_lt hlt stop
  · rw [slice, cutAt_of_le hle]
    simp only [bind, Except.bind, if_pos h]
    exact ⟨_, rfl⟩

end SourceEditor.Buffer

import SourceEditor.Document.Memory
import SourceEditor.Proofs.Text.Splicing
import SourceEditor.Session.History

/-!
# What an edit does to a text

`Edit.Makes e before after` says that the edit `e` takes the text `before` to the text `after`: at
its offset, the text of an insertion is new in `after`, and the text of a removal was there in
`before`. An edit that was made can be taken back by its inverse (`Edit.Makes.inverse`).

A stack of edits keeps the latest ones (`History.push_eq_take`).

A buffer and a document carry out an edit each in its own way, and keep a caret. `Buffer.edited` and
`MemoryDocument.edited` are what they come to, and the lemmas about them say that both hold the text
that the edit makes, with their carets inside it.
-/

namespace SourceEditor

namespace Edit

/-- An edit takes one text to another. -/
inductive Makes : Edit → List Char → List Char → Prop
  | insert (front text back : List Char) :
      Makes ⟨.insert, front.length, text⟩ (front ++ back) (front ++ text ++ back)
  | remove (front text back : List Char) :
      Makes ⟨.remove, front.length, text⟩ (front ++ text ++ back) (front ++ back)

theorem insert_makes {before : List Char} {offset : Nat} (h : offset ≤ before.length)
    (text : List Char) :
    Makes ⟨.insert, offset, text⟩ before (before.take offset ++ text ++ before.drop offset) := by
  have hfront : (before.take offset).length = offset := List.length_take_of_le h
  have := Makes.insert (before.take offset) text (before.drop offset)
  rwa [hfront, List.take_append_drop] at this

theorem remove_makes {before : List Char} {offset count : Nat}
    (h : offset + count ≤ before.length) :
    Makes ⟨.remove, offset, (before.drop offset).take count⟩ before
      (before.take offset ++ before.drop (offset + count)) := by
  have hfront : (before.take offset).length = offset := List.length_take_of_le (by omega)
  have hbefore : before.take offset ++ (before.drop offset).take count ++
      before.drop (offset + count) = before := by
    rw [List.append_assoc, ← List.drop_drop, List.take_append_drop, List.take_append_drop]
  have := Makes.remove (before.take offset) ((before.drop offset).take count)
    (before.drop (offset + count))
  rwa [hfront, hbefore] at this

theorem remove_all_makes (text : List Char) : Makes ⟨.remove, 0, text⟩ text [] := by
  simpa using Makes.remove [] text []

namespace Makes

variable {e : Edit} {before after : List Char}

theorem inverse (h : e.Makes before after) : e.inverse.Makes after before := by
  cases h with
  | insert front text back => exact .remove front text back
  | remove front text back => exact .insert front text back

theorem touchedStop_le (h : e.Makes before after) : e.touchedStop ≤ after.length := by
  cases h with
  | insert front text back =>
    simp only [touchedStop, List.length_append]
    omega
  | remove front text back => simp [touchedStop]

/-- The characters of the new text are old or come with the edit. -/
theorem mem_or_mem (h : e.Makes before after) {c : Char} (hc : c ∈ after) :
    c ∈ before ∨ c ∈ e.text := by
  cases h with
  | insert front text back =>
    simp only [List.mem_append] at hc ⊢
    tauto
  | remove front text back =>
    simp only [List.mem_append] at hc ⊢
    tauto

/-- An edit with text in it changes the text. -/
theorem ne (h : e.Makes before after) (hne : e.text ≠ []) : after ≠ before := by
  have hpos := List.length_pos_iff.mpr hne
  intro heq
  have hlength := congrArg List.length heq
  cases h with
  | insert front text back =>
    simp only [List.length_append] at hlength hpos
    omega
  | remove front text back =>
    simp only [List.length_append] at hlength hpos
    omega

/-- An edit either leaves new text behind, or was made where there was text. -/
theorem before_ne_nil_or_lt (h : e.Makes before after) (hne : e.text ≠ []) :
    before ≠ [] ∨ e.offset < e.touchedStop := by
  cases h with
  | insert front text back =>
    right
    have hpos : 0 < text.length := List.length_pos_iff.mpr hne
    simp only [touchedStop]
    omega
  | remove front text back =>
    left
    simp_all

end Makes

/-- The caret after an edit, in a buffer and in a document. -/
def caretAfter (e : Edit) (caret : Nat) : Nat :=
  match e.kind with
  | .insert => Buffer.caretAfterInsert caret e.offset e.text.length
  | .remove => Buffer.caretAfterRemove caret e.offset e.text.length

theorem Makes.caretAfter_le {e : Edit} {before after : List Char} (h : e.Makes before after)
    {caret : Nat} (hcaret : caret ≤ before.length) : e.caretAfter caret ≤ after.length := by
  cases h with
  | insert front text back =>
    simp only [caretAfter, Buffer.caretAfterInsert, List.length_append] at hcaret ⊢
    split <;> omega
  | remove front text back =>
    simp only [caretAfter, Buffer.caretAfterRemove, List.length_append] at hcaret ⊢
    split
    · omega
    · split <;> omega

end Edit

/-! ## Buffers -/

namespace Buffer

/-- The buffer after an edit. -/
def edited (b : Buffer) (e : Edit) : Buffer :=
  match e.kind with
  | .insert => b.inserted e.offset e.text
  | .remove => b.removed e.offset e.text.length

@[simp]
theorem caret_edited (b : Buffer) (e : Edit) : (b.edited e).caret = e.caretAfter b.caret := by
  obtain ⟨kind, offset, text⟩ := e
  cases kind <;> rfl

theorem text_edited {b : Buffer} {e : Edit} {after : List Char} (h : e.Makes b.text after) :
    (b.edited e).text = after := by
  generalize hb : b.text = before at h
  cases h with
  | insert front text back => simp [edited, inserted, hb]
  | remove front text back =>
    simp only [edited, removed, hb, List.append_assoc, List.take_left]
    rw [← List.append_assoc, ← List.length_append, List.drop_left]

theorem length_edited {b : Buffer} {e : Edit} {after : List Char} (h : e.Makes b.text after)
    (hlength : b.length = b.text.length) : (b.edited e).length = after.length := by
  generalize hb : b.text = before at h
  rw [hb] at hlength
  cases h with
  | insert front text back =>
    simp only [edited, inserted, hlength, List.length_append]
    omega
  | remove front text back =>
    simp only [edited, removed, hlength, List.length_append]
    omega

end Buffer

/-! ## Stacks of edits -/

namespace History

/-- A stack within the limit keeps the latest edits. -/
theorem push_eq_take {limit : Nat} {stack : List Edit} (h : stack.length ≤ limit) (e : Edit) :
    push limit e stack = (e :: stack).take limit := by
  rw [push]
  split
  · next hzero =>
    subst hzero
    rw [List.take_zero, List.length_eq_zero_iff.mp (Nat.le_zero.mp h)]
  · split
    · next hpos hfull =>
      obtain ⟨n, rfl⟩ := Nat.exists_eq_add_one_of_ne_zero hpos
      rw [List.take_succ_cons, List.dropLast_eq_take, Nat.le_antisymm h hfull,
        Nat.add_sub_cancel]
    · next hroom => rw [List.take_of_length_le (by rw [List.length_cons]; omega)]

/-- The edit on top is the one that came last, as long as any are kept. -/
theorem exists_push_eq_cons {limit : Nat} (h : 0 < limit) (e : Edit) (stack : List Edit) :
    ∃ rest, push limit e stack = e :: rest := by
  rw [push, if_neg (Nat.ne_of_gt h)]
  split
  · exact ⟨_, rfl⟩
  · exact ⟨_, rfl⟩

end History

/-! ## Documents -/

namespace MemoryDocument

/-- The document after an edit. -/
def edited (d : MemoryDocument) (e : Edit) : MemoryDocument :=
  match e.kind with
  | .insert => d.inserted e.offset e.text
  | .remove => d.removed e.offset e.text.length

theorem edited_eq (d : MemoryDocument) (e : Edit) :
    d.edited e =
      { d with
        chars := (d.edited e).chars
        styles := (d.edited e).styles
        caret := e.caretAfter d.caret } := by
  obtain ⟨kind, offset, text⟩ := e
  cases kind <;> rfl

theorem chars_edited {d : MemoryDocument} {b : Buffer} (h : d.chars = b.text) (e : Edit) :
    (d.edited e).chars = (b.edited e).text := by
  obtain ⟨kind, offset, text⟩ := e
  cases kind <;>
    simp only [edited, inserted, removed, Buffer.edited, Buffer.inserted, Buffer.removed, h]

theorem length_styles_edited {d : MemoryDocument} {e : Edit} {before after : List Char}
    (h : e.Makes before after) (hstyles : d.styles.length = before.length) :
    (d.edited e).styles.length = after.length := by
  cases h with
  | insert front text back =>
    simp only [List.length_append] at hstyles
    simp only [edited, inserted, List.length_append, List.length_take, List.length_replicate,
      List.length_drop, hstyles]
    omega
  | remove front text back =>
    simp only [List.length_append] at hstyles
    simp only [edited, removed, List.length_append, List.length_take, List.length_drop, hstyles]
    omega

end MemoryDocument

end SourceEditor

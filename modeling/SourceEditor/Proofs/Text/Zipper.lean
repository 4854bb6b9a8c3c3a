import SourceEditor.Text.Buffer
import Mathlib.Data.List.Basic

/-!
# Lists with a caret

A list with a caret in it is a pair of lists: what comes before the caret and what comes after it.
In this form the caret needs no arithmetic. What is inserted before the caret or at it goes into the
first list, what is inserted behind it goes into the second, and a removal takes from each list what
the removed range has of it. So the caret stays before the same element, as long as that is there.

Texts with a caret elsewhere are lists with a number beside them. `Zipper.toList_insert` and
`Zipper.caret_insert` lead from one form to the other for an insertion, `Zipper.toList_remove` and
`Zipper.caret_remove` for a removal.
-/

namespace SourceEditor

/-- A list with a caret between two of its elements, or at one of its ends. -/
structure Zipper (α : Type) where
  /-- What comes before the caret. -/
  before : List α
  /-- What comes after the caret. -/
  after : List α
  deriving DecidableEq, Repr

namespace Zipper

variable {α : Type}

def toList (z : Zipper α) : List α := z.before ++ z.after

def length (z : Zipper α) : Nat := z.toList.length

def caret (z : Zipper α) : Nat := z.before.length

/-- The list with its caret at another place. -/
def setCaret (caret : Nat) (z : Zipper α) : Zipper α := ⟨z.toList.take caret, z.toList.drop caret⟩

/-- The list with something inserted at an offset. The caret goes behind what is inserted at it. -/
def insert (offset : Nat) (items : List α) (z : Zipper α) : Zipper α :=
  if offset ≤ z.before.length then
    { z with before := z.before.take offset ++ items ++ z.before.drop offset }
  else
    let place := offset - z.before.length
    { z with after := z.after.take place ++ items ++ z.after.drop place }

/-- The list without `count` elements at an offset. -/
def remove (offset count : Nat) (z : Zipper α) : Zipper α where
  before := z.before.take offset ++ z.before.drop (offset + count)
  after := z.after.take (offset - z.before.length) ++
    z.after.drop (offset + count - z.before.length)

variable (z : Zipper α) {caret offset : Nat}

theorem caret_le_length : z.caret ≤ z.length := by
  simp [Zipper.caret, length, toList]

/-- The list and the place of the caret say everything. -/
theorem ext_toList {z w : Zipper α} (hlist : z.toList = w.toList) (hcaret : z.caret = w.caret) :
    z = w := by
  obtain ⟨before, after⟩ := z
  obtain ⟨before', after'⟩ := w
  obtain ⟨rfl, rfl⟩ := List.append_inj hlist hcaret
  rfl

@[simp]
theorem toList_setCaret : (z.setCaret caret).toList = z.toList :=
  List.take_append_drop caret z.toList

theorem caret_setCaret (h : caret ≤ z.length) : (z.setCaret caret).caret = caret :=
  List.length_take_of_le h

theorem toList_insert (items : List α) :
    (z.insert offset items).toList = z.toList.take offset ++ items ++ z.toList.drop offset := by
  unfold insert toList
  split
  · next h =>
    rw [List.take_append_of_le_length h, List.drop_append_of_le_length h]
    simp only [List.append_assoc]
  · next h =>
    have hbefore : z.before.length ≤ offset := by omega
    rw [List.take_append, List.drop_append, List.take_of_length_le hbefore,
      List.drop_of_length_le hbefore]
    simp only [List.append_assoc, List.nil_append]

theorem caret_insert (items : List α) :
    (z.insert offset items).caret = Buffer.caretAfterInsert z.caret offset items.length := by
  unfold insert Zipper.caret Buffer.caretAfterInsert
  split
  · simp only [List.length_append, List.length_take, List.length_drop]
    omega
  · rfl

theorem toList_remove (count : Nat) :
    (z.remove offset count).toList = z.toList.take offset ++ z.toList.drop (offset + count) := by
  unfold remove toList
  by_cases h : offset ≤ z.before.length
  · rw [Nat.sub_eq_zero_of_le h, List.take_zero, List.nil_append, List.take_append_of_le_length h,
      List.drop_append, List.append_assoc]
  · have hbefore : z.before.length ≤ offset + count := by omega
    rw [List.drop_of_length_le hbefore, List.append_nil, List.drop_append,
      List.drop_of_length_le hbefore, List.nil_append, List.take_append, List.append_assoc]

theorem caret_remove (count : Nat) :
    (z.remove offset count).caret = Buffer.caretAfterRemove z.caret offset count := by
  change (z.before.take offset ++ z.before.drop (offset + count)).length =
    Buffer.caretAfterRemove z.before.length offset count
  rw [Buffer.caretAfterRemove, List.length_append, List.length_take, List.length_drop]
  split_ifs <;> omega

/-- What was inserted is taken out again, and the caret is back at its place. -/
theorem remove_insert (h : offset ≤ z.length) (items : List α) :
    (z.insert offset items).remove offset items.length = z := by
  have htake : (z.toList.take offset).length = offset := List.length_take_of_le h
  apply ext_toList
  · have hfront : (z.toList.take offset ++ items).length = offset + items.length := by
      rw [List.length_append, htake]
    rw [toList_remove, toList_insert, List.drop_left' hfront, List.append_assoc,
      List.take_left' htake, List.take_append_drop]
  · rw [caret_remove, caret_insert]
    unfold Buffer.caretAfterInsert Buffer.caretAfterRemove
    split_ifs <;> omega

end Zipper

end SourceEditor

import SourceEditor.Text.Buffer
import Mathlib.Data.List.TakeWhile

/-!
# The lines of a text

A text is a list of lines with a newline between any two, and an offset stands at some column of one
of them (`placeAt`). `LinesAround text offset above left right below` says what there is around an
offset: the lines above, the two parts of its own line, and the lines below.

The ends of the line of an offset are two more offsets of the same line (`LinesAround.at_lineStart`,
`LinesAround.at_lineStop`). A newline at an offset makes two lines of the two parts
(`LinesAround.splitOn_break`), whatever the parts are. What is written in place of a line is a line
as long as it has no newline in it (`LineBetween.linesAround`).
-/

namespace SourceEditor

/-! ## The first and the last line -/

section Splitting

variable {α : Type} [BEq α]

theorem length_splitOn (newline : α) (text : List α) :
    (text.splitOn newline).length = text.count newline + 1 := by
  induction text with
  | nil => rfl
  | cons a text ih =>
    rw [List.splitOn_cons_eq_if_modifyHead, List.count_cons]
    split
    · rw [List.length_cons, ih]
    · rw [List.length_modifyHead, ih]

variable [LawfulBEq α] {newline : α} {text left right : List α} {above below : List (List α)}

/-- The last line is the whole text, or what is behind the last newline. -/
theorem last_line_cases (h : text.splitOn newline = above ++ [left]) :
    newline ∉ left ∧ (above = [] ∧ text = left ∨
      ∃ front, text = front ++ newline :: left ∧ front.splitOn newline = above) := by
  by_cases hmem : newline ∈ text
  · obtain ⟨back, front, hsplit, hback⟩ :=
      List.eq_append_cons_of_mem (List.mem_reverse.mpr hmem)
    have htext : text = front.reverse ++ newline :: back.reverse := by
      rw [← text.reverse_reverse, hsplit]
      simp
    have hlast : newline ∉ back.reverse := mt List.mem_reverse.mp hback
    rw [htext, List.splitOn_append_cons_self, List.splitOn_eq_singleton hlast] at h
    obtain ⟨habove, hleft⟩ := List.append_inj' h rfl
    cases hleft
    exact ⟨hlast, Or.inr ⟨front.reverse, htext, habove⟩⟩
  · have hsingle : [] ++ [text] = above ++ [left] := (List.splitOn_eq_singleton hmem).symm.trans h
    obtain ⟨habove, hleft⟩ := List.append_inj' hsingle rfl
    cases hleft
    exact ⟨hmem, Or.inl ⟨habove.symm, rfl⟩⟩

/-- The first line is the whole text, or what is before the first newline. -/
theorem first_line_cases (h : text.splitOn newline = right :: below) :
    newline ∉ right ∧ (below = [] ∧ text = right ∨
      ∃ back, text = right ++ newline :: back ∧ back.splitOn newline = below) := by
  by_cases hmem : newline ∈ text
  · obtain ⟨front, back, rfl, hfront⟩ := List.eq_append_cons_of_mem hmem
    rw [List.splitOn_append_cons_self_of_not_mem hfront] at h
    cases h
    exact ⟨hfront, Or.inr ⟨back, rfl, rfl⟩⟩
  · rw [List.splitOn_eq_singleton hmem] at h
    cases h
    exact ⟨hmem, Or.inl ⟨rfl, rfl⟩⟩

/-- Text without a newline makes the first line longer. -/
theorem splitOn_append_of_not_mem (hleft : newline ∉ left)
    (h : text.splitOn newline = right :: below) :
    (left ++ text).splitOn newline = (left ++ right) :: below := by
  obtain ⟨hright, ⟨rfl, rfl⟩ | ⟨back, rfl, rfl⟩⟩ := first_line_cases h
  · exact List.splitOn_eq_singleton (by simp [hleft, hright])
  · rw [← List.append_assoc, List.splitOn_append_cons_self_of_not_mem (by simp [hleft, hright])]

/-- The lines of a longer text are the same up to the last. -/
theorem splitOn_append_of_last (h : text.splitOn newline = above ++ [left]) (back : List α) :
    (text ++ back).splitOn newline = above ++ (left ++ back).splitOn newline := by
  obtain ⟨-, ⟨rfl, rfl⟩ | ⟨front, rfl, rfl⟩⟩ := last_line_cases h
  · rfl
  · rw [List.append_assoc, List.cons_append, List.splitOn_append_cons_self]

/-! ## Searches for a newline -/

theorem findIdx?_of_not_mem (h : newline ∉ text) : text.findIdx? (· == newline) = none := by
  rw [List.findIdx?_eq_none_iff]
  rintro a ha
  exact beq_false_of_ne (fun heq => h (heq ▸ ha))

theorem findIdx?_append_cons (h : newline ∉ left) (back : List α) :
    (left ++ newline :: back).findIdx? (· == newline) = some left.length := by
  rw [List.findIdx?_append, findIdx?_of_not_mem h, List.findIdx?_cons, if_pos BEq.rfl]
  simp

end Splitting

theorem insertIdx_append_length {α : Type} (front back : List α) (a : α) :
    (front ++ back).insertIdx front.length a = front ++ a :: back := by
  induction front with
  | nil => exact List.insertIdx_zero
  | cons b front ih =>
    rw [List.cons_append, List.length_cons, List.insertIdx_succ_cons, ih, List.cons_append]

/-! ## Places -/

/-- A line, counted from zero, and a column in it. -/
structure Place where
  line : Nat
  column : Nat
  deriving DecidableEq, Repr

/-- The place of an offset in a text: how many newlines come before it, and how many characters come
between the last of them and the offset. -/
def placeAt (text : List Char) (offset : Nat) : Place where
  line := (text.take offset).count '\n'
  column := ((text.take offset).reverse.takeWhile (· != '\n')).length

/-- What there is around an offset: the lines above, the two parts of its own line, and the lines
below. -/
structure LinesAround (text : List Char) (offset : Nat) (above : List (List Char))
    (left right : List Char) (below : List (List Char)) : Prop where
  front_eq : (text.take offset).splitOn '\n' = above ++ [left]
  back_eq : (text.drop offset).splitOn '\n' = right :: below

theorem exists_linesAround (text : List Char) (offset : Nat) :
    ∃ above left right below, LinesAround text offset above left right below := by
  obtain ⟨right, below, hback⟩ :=
    List.exists_cons_of_ne_nil (List.splitOn_ne_nil '\n' (text.drop offset))
  rcases List.eq_nil_or_concat ((text.take offset).splitOn '\n') with hnil | ⟨above, left, hfront⟩
  · exact absurd hnil (List.splitOn_ne_nil _ _)
  · exact ⟨above, left, right, below, hfront.trans List.concat_eq_append, hback⟩

/-- Whatever stands between `front` and `back` without a newline is one line. -/
structure LineBetween (front back : List Char) (above below : List (List Char)) : Prop where
  front_eq : front.splitOn '\n' = above ++ [[]]
  back_eq : back.splitOn '\n' = [] :: below

theorem LineBetween.linesAround {front back left right : List Char} {above below : List (List Char)}
    (h : LineBetween front back above below) (hleft : '\n' ∉ left) (hright : '\n' ∉ right) :
    LinesAround (front ++ (left ++ right) ++ back) (front.length + left.length) above left right
      below := by
  have hlength : (front ++ left).length = front.length + left.length := List.length_append
  have htext : front ++ (left ++ right) ++ back = (front ++ left) ++ (right ++ back) := by
    simp only [List.append_assoc]
  rw [htext]
  constructor
  · rw [List.take_left' hlength, splitOn_append_of_last h.front_eq, List.nil_append,
      List.splitOn_eq_singleton hleft]
  · rw [List.drop_left' hlength, splitOn_append_of_not_mem hright h.back_eq, List.append_nil]

namespace LinesAround

variable {text : List Char} {offset : Nat} {above : List (List Char)} {left right : List Char}
  {below : List (List Char)} (h : LinesAround text offset above left right below)
include h

theorem splitOn_eq : text.splitOn '\n' = above ++ (left ++ right) :: below := by
  rw [← List.take_append_drop offset text, splitOn_append_of_last h.front_eq,
    splitOn_append_of_not_mem (last_line_cases h.front_eq).1 h.back_eq]

theorem placeAt_eq : placeAt text offset = ⟨above.length, left.length⟩ := by
  obtain ⟨hleft, hcases⟩ := last_line_cases h.front_eq
  have hline : (text.take offset).count '\n' = above.length := by
    have hlength := length_splitOn '\n' (text.take offset)
    rw [h.front_eq, List.length_append, List.length_singleton] at hlength
    omega
  have hall : ∀ c ∈ left.reverse, (c != '\n') = true := by
    intro c hc
    have hne : c ≠ '\n' := fun heq => hleft (heq ▸ List.mem_reverse.mp hc)
    simpa using hne
  have hcolumn : (text.take offset).reverse.takeWhile (· != '\n') = left.reverse := by
    obtain ⟨-, htake⟩ | ⟨front, htake, -⟩ := hcases
    · rw [htake]
      exact List.takeWhile_eq_self_iff.mpr hall
    · rw [htake, List.reverse_append, List.reverse_cons, List.append_assoc,
        List.takeWhile_append_of_pos hall]
      simp
  rw [placeAt, hline, hcolumn, List.length_reverse]

/-- A newline at the offset makes two lines of the two parts. -/
theorem splitOn_break :
    (text.take offset ++ ['\n'] ++ text.drop offset).splitOn '\n' =
      above ++ left :: right :: below := by
  rw [List.append_assoc, List.singleton_append, List.splitOn_append_cons_self, h.front_eq,
    h.back_eq, List.append_assoc, List.singleton_append]

/-! ## The ends of a line -/

theorem lineStop_eq {b : Buffer} (hb : b.text = text) (hlength : b.length = b.text.length)
    (hoffset : offset ≤ text.length) : b.lineStop offset = offset + right.length := by
  obtain ⟨hright, hcases⟩ := first_line_cases h.back_eq
  rw [Buffer.lineStop, Buffer.find?, hlength, hb]
  obtain ⟨-, hdrop⟩ | ⟨back, hdrop, -⟩ := hcases
  · rw [hdrop, findIdx?_of_not_mem hright, Option.map_none, Option.getD_none, ← hdrop,
      List.length_drop]
    omega
  · rw [hdrop, findIdx?_append_cons hright, Option.map_some, Option.getD_some, Nat.add_comm]

theorem lineStart_eq {b : Buffer} (hb : b.text = text) (hoffset : offset ≤ text.length) :
    b.lineStart offset = offset - left.length := by
  obtain ⟨hleft, hcases⟩ := last_line_cases h.front_eq
  have hleft : '\n' ∉ left.reverse := mt List.mem_reverse.mp hleft
  have hlength : (text.take offset).length = offset := List.length_take_of_le hoffset
  rw [Buffer.lineStart, Buffer.findLast?, hb]
  obtain ⟨-, htake⟩ | ⟨front, htake, -⟩ := hcases
  · rw [htake] at hlength ⊢
    simp only [findIdx?_of_not_mem hleft, Option.map_none]
    omega
  · rw [htake] at hlength ⊢
    rw [List.reverse_append, List.reverse_cons, List.append_assoc, List.singleton_append]
    simp only [findIdx?_append_cons hleft, Option.map_some, List.length_reverse]
    simp only [List.length_append, List.length_cons] at hlength ⊢
    omega

/-- What comes before the line is empty or ends with a newline. -/
theorem exists_front :
    ∃ front, text.take offset = front ++ left ∧ front.splitOn '\n' = above ++ [[]] := by
  obtain ⟨-, ⟨rfl, htake⟩ | ⟨front, htake, rfl⟩⟩ := last_line_cases h.front_eq
  · exact ⟨[], htake, List.splitOn_nil '\n'⟩
  · refine ⟨front ++ ['\n'], by rw [htake, List.append_assoc, List.singleton_append], ?_⟩
    rw [List.splitOn_append_cons_self, List.splitOn_nil]

/-- What comes behind the line is empty or starts with a newline. -/
theorem exists_back :
    ∃ back, text.drop offset = right ++ back ∧ back.splitOn '\n' = [] :: below := by
  obtain ⟨-, ⟨rfl, hdrop⟩ | ⟨back, hdrop, rfl⟩⟩ := first_line_cases h.back_eq
  · exact ⟨[], by rw [hdrop, List.append_nil], List.splitOn_nil '\n'⟩
  · exact ⟨'\n' :: back, hdrop, List.splitOn_append_cons_self_of_not_mem List.not_mem_nil back⟩

/-- What there is around the end of the line. -/
theorem at_lineStop : LinesAround text (offset + right.length) above (left ++ right) [] below := by
  obtain ⟨back, hdrop, hback⟩ := h.exists_back
  have hfront : text.take (offset + right.length) = text.take offset ++ right := by
    rw [List.take_add, hdrop, List.take_left]
  have hleft := (last_line_cases h.front_eq).1
  have hright := (first_line_cases h.back_eq).1
  constructor
  · rw [hfront, splitOn_append_of_last h.front_eq,
      List.splitOn_eq_singleton (by simp [hleft, hright])]
  · rw [← List.drop_drop, hdrop, List.drop_left, hback]

/-- The text in parts: what comes before the line, the line, and what comes behind it. -/
theorem exists_lineBetween (hoffset : offset ≤ text.length) :
    ∃ front back, LineBetween front back above below ∧
      text = front ++ (left ++ right) ++ back ∧ offset = front.length + left.length := by
  obtain ⟨front, htake, hfront⟩ := h.exists_front
  obtain ⟨back, hdrop, hback⟩ := h.exists_back
  refine ⟨front, back, ⟨hfront, hback⟩, ?_, ?_⟩
  · rw [← List.take_append_drop offset text, htake, hdrop]
    simp only [List.append_assoc]
  · rw [← List.length_append, ← htake, List.length_take_of_le hoffset]

/-- What there is around the start of the line. -/
theorem at_lineStart (hoffset : offset ≤ text.length) :
    LinesAround text (offset - left.length) above [] (left ++ right) below := by
  obtain ⟨front, back, hbetween, rfl, rfl⟩ := h.exists_lineBetween hoffset
  have hleft := (last_line_cases h.front_eq).1
  have hright := (first_line_cases h.back_eq).1
  rw [Nat.add_sub_cancel]
  exact hbetween.linesAround List.not_mem_nil (by simp [hleft, hright])

/-- A newline puts the offset at the end of the first of two lines. -/
theorem before_break (hoffset : offset ≤ text.length) :
    LinesAround (text.take offset ++ ['\n'] ++ text.drop offset) offset above left []
      (right :: below) := by
  have hlength : (text.take offset).length = offset := List.length_take_of_le hoffset
  rw [List.append_assoc]
  constructor
  · rw [List.take_left' hlength, h.front_eq]
  · rw [List.drop_left' hlength, List.singleton_append, ← h.back_eq]
    exact List.splitOn_append_cons_self_of_not_mem List.not_mem_nil _

/-- The offset behind the newline is the start of the second of two lines. -/
theorem after_break (hoffset : offset ≤ text.length) :
    LinesAround (text.take offset ++ ['\n'] ++ text.drop offset) (offset + 1) (above ++ [left]) []
      right below := by
  have hlength : (text.take offset ++ ['\n']).length = offset + 1 := by
    rw [List.length_append, List.length_take_of_le hoffset, List.length_singleton]
  constructor
  · rw [List.take_left' hlength, List.splitOn_append_cons_self, h.front_eq, List.splitOn_nil]
  · rw [List.drop_left' hlength, h.back_eq]

end LinesAround

end SourceEditor

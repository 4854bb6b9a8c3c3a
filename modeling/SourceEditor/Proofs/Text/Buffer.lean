import SourceEditor.Proofs.Text.Lines
import SourceEditor.Proofs.Text.Splicing
import SourceEditor.Proofs.Text.Zipper

/-!
# Buffers are texts with a caret

A buffer holds a text, a number that is to be the length of the text, and a number that is to be a
place in it. Each operation changes the three one by one, and finds its way in the text by counting
the bytes of the characters. This module shows that all of it comes to a text with a caret, a
`Zipper`.

`Operation` is what can be asked of a buffer, `Operation.effect` what becomes of a text with a
caret, and `Operation.Leaves` says when an operation asks for something outside of the text.
`perform_of_not_leaves` is the step: an operation that stays inside the text completes, and does to
the buffer what its effect is on the zipper. `perform_of_leaves` is the other case, in which nothing
happens. What holds after any operations (`refines_zipper_run`) follows by going along them.

The line of an offset is described without reference to searches: it is the one range around the
offset that has no newline in it and cannot be made longer (`IsLine`).
-/

namespace SourceEditor

/-! ## Searches and lines -/

/-- Where a character is found first, from an offset on. -/
def IsFirst (text : List Char) (c : Char) (start : Nat) : Option Nat → Prop
  | some i => start ≤ i ∧ text[i]? = some c ∧ ∀ j, start ≤ j → j < i → text[j]? ≠ some c
  | none => ∀ j, start ≤ j → text[j]? ≠ some c

/-- Where a character is found last, before an offset. -/
def IsLast (text : List Char) (c : Char) (stop : Nat) : Option Nat → Prop
  | some i => i < stop ∧ text[i]? = some c ∧ ∀ j, i < j → j < stop → text[j]? ≠ some c
  | none => ∀ j, j < stop → text[j]? ≠ some c

/-- A range around an offset with no newline in it. -/
structure Unbroken (text : List Char) (offset : Nat) (range : Span) : Prop where
  start_le : range.start ≤ offset
  le_stop : offset ≤ range.stop
  stop_le : range.stop ≤ text.length
  ne_newline : ∀ i, range.start ≤ i → i < range.stop → text[i]? ≠ some '\n'

/-- A range around an offset that has no newline in it, and that none contains but itself. -/
structure IsLine (text : List Char) (offset : Nat) (range : Span) : Prop
    extends Unbroken text offset range where
  maximal : ∀ other, Unbroken text offset other → other.start ≤ range.start →
    range.stop ≤ other.stop → other = range

theorem getElem?_of_findIdx? {c : Char} {cs : List Char} {i : Nat}
    (h : cs.findIdx? (· == c) = some i) :
    cs[i]? = some c ∧ ∀ j, j < i → cs[j]? ≠ some c := by
  obtain ⟨hi, hc, hbefore⟩ := List.findIdx?_eq_some_iff_getElem.mp h
  refine ⟨by simpa [List.getElem?_eq_getElem hi] using hc, fun j hj => ?_⟩
  have hne := hbefore j hj
  rw [List.getElem?_eq_getElem (hj.trans hi)]
  simpa using hne

theorem getElem?_ne_of_findIdx? {c : Char} {cs : List Char}
    (h : cs.findIdx? (· == c) = none) (j : Nat) : cs[j]? ≠ some c := by
  intro hj
  have := List.findIdx?_eq_none_iff.mp h c (List.mem_of_getElem? hj)
  simp at this

namespace Buffer

theorem isFirst_find? (b : Buffer) (c : Char) (start : Nat) :
    IsFirst b.text c start (b.find? c start) := by
  -- a place from the offset on is a place of what is left after it
  have hshift {j : Nat} (hj : start ≤ j) : b.text[j]? = (b.text.drop start)[j - start]? := by
    rw [List.getElem?_drop, Nat.add_sub_cancel' hj]
  rw [find?]
  cases hfind : (b.text.drop start).findIdx? (· == c) with
  | none =>
    intro j hj
    rw [hshift hj]
    exact getElem?_ne_of_findIdx? hfind _
  | some i =>
    obtain ⟨hi, hbefore⟩ := getElem?_of_findIdx? hfind
    simp only [Option.map_some, IsFirst]
    refine ⟨Nat.le_add_left start i, ?_, fun j hj hlt => ?_⟩
    · rw [hshift (Nat.le_add_left start i), Nat.add_sub_cancel]
      exact hi
    · rw [hshift hj]
      exact hbefore _ (by omega)

theorem isLast_findLast? (b : Buffer) (c : Char) (stop : Nat) :
    IsLast b.text c stop (b.findLast? c stop) := by
  have hlength : (b.text.take stop).length = min stop b.text.length := List.length_take
  -- a place before the offset, counted from the offset backwards
  have hback {j : Nat} (hj : j < stop) (hlt : j < b.text.length) :
      b.text[j]? = (b.text.take stop).reverse[(b.text.take stop).length - 1 - j]? := by
    rw [List.getElem?_reverse (by omega), List.getElem?_take_of_lt (by omega)]
    congr 1
    omega
  rw [findLast?]
  cases hfind : (b.text.take stop).reverse.findIdx? (· == c) with
  | none =>
    intro j hj hc
    rw [hback hj (List.getElem?_eq_some_iff.mp hc).1] at hc
    exact getElem?_ne_of_findIdx? hfind _ hc
  | some i =>
    obtain ⟨hi, hbefore⟩ := getElem?_of_findIdx? hfind
    have hlt : i < (b.text.take stop).length := by
      rw [← List.length_reverse]
      exact (List.getElem?_eq_some_iff.mp hi).1
    simp only [Option.map_some, IsLast]
    refine ⟨by omega, ?_, fun j hj hstop hc => ?_⟩
    · rw [hback (by omega) (by omega)]
      simpa only [Nat.sub_sub_self (Nat.le_sub_one_of_lt hlt)] using hi
    · have hj' := (List.getElem?_eq_some_iff.mp hc).1
      rw [hback hstop hj'] at hc
      exact hbefore _ (by omega) hc

end Buffer

namespace LineBetween

variable {front back : List Char} {above below : List (List Char)}

/-- What comes before the line ends with a newline. -/
theorem getElem?_front (h : LineBetween front back above below) (hpos : 0 < front.length)
    (rest : List Char) : (front ++ rest)[front.length - 1]? = some '\n' := by
  obtain ⟨-, ⟨-, rfl⟩ | ⟨front, rfl, -⟩⟩ := last_line_cases h.front_eq
  · simp at hpos
  · simp

/-- What comes behind the line starts with a newline. -/
theorem getElem?_back (h : LineBetween front back above below) {line : List Char}
    (hpos : 0 < back.length) : (line ++ back)[line.length]? = some '\n' := by
  obtain ⟨-, ⟨-, rfl⟩ | ⟨back, rfl, -⟩⟩ := first_line_cases h.back_eq
  · simp at hpos
  · simp

/-- A range around an offset of the line that has no newline lies inside the line. -/
theorem contains (h : LineBetween front back above below) {line : List Char} {offset : Nat}
    (hstart : front.length ≤ offset) (hstop : offset ≤ (front ++ line).length) {range : Span}
    (hrange : Unbroken (front ++ line ++ back) offset range) :
    front.length ≤ range.start ∧ range.stop ≤ (front ++ line).length := by
  constructor
  · by_contra hlt
    refine hrange.ne_newline (front.length - 1) (by omega) ?_ ?_
    · have := hrange.le_stop
      omega
    · rw [List.append_assoc]
      exact h.getElem?_front (by omega) (line ++ back)
  · by_contra hlt
    have hstart' := hrange.start_le
    have hstop' := hrange.stop_le
    rw [List.length_append] at hstop'
    exact hrange.ne_newline (front ++ line).length (by omega) (by omega)
      (h.getElem?_back (by omega))

end LineBetween

namespace Buffer

variable {b : Buffer} {offset : Nat}

/-- The line of an offset, between what comes before it and what comes behind it. -/
theorem exists_line (hlength : b.length = b.text.length) (h : offset ≤ b.length) :
    ∃ front line back above below, LineBetween front back above below ∧ '\n' ∉ line ∧
      b.text = front ++ line ++ back ∧ front.length ≤ offset ∧ offset ≤ (front ++ line).length ∧
      b.lineStart offset = front.length ∧ b.lineStop offset = (front ++ line).length := by
  obtain ⟨above, left, right, below, haround⟩ := exists_linesAround b.text offset
  have hroom : offset ≤ b.text.length := hlength ▸ h
  have hleft := (last_line_cases haround.front_eq).1
  have hright := (first_line_cases haround.back_eq).1
  have hstart := haround.lineStart_eq rfl hroom
  have hstop := haround.lineStop_eq rfl hlength hroom
  obtain ⟨front, back, hbetween, htext, hoffset⟩ := haround.exists_lineBetween hroom
  have hline : (front ++ (left ++ right)).length = front.length + (left.length + right.length) := by
    simp only [List.length_append]
  exact ⟨front, left ++ right, back, above, below, hbetween, by simp [hleft, hright], htext,
    by omega, by omega, by omega, by omega⟩

/-- The line of an offset is the only range that a line can be. -/
theorem isLine_iff (hlength : b.length = b.text.length) (h : offset ≤ b.length) (range : Span) :
    IsLine b.text offset range ↔ range = ⟨b.lineStart offset, b.lineStop offset⟩ := by
  obtain ⟨front, line, back, above, below, hbetween, hline, htext, hfront, hback, hstart, hstop⟩ :=
    exists_line hlength h
  rw [htext, hstart, hstop]
  have hunbroken :
      Unbroken (front ++ line ++ back) offset ⟨front.length, (front ++ line).length⟩ := by
    refine ⟨hfront, hback, by simp, fun i hi hlt hnewline => ?_⟩
    rw [List.getElem?_append_left hlt, List.getElem?_append_right hi] at hnewline
    exact hline (List.mem_of_getElem? hnewline)
  constructor
  · intro hrange
    obtain ⟨hle, hge⟩ := hbetween.contains hfront hback hrange.toUnbroken
    exact (hrange.maximal _ hunbroken hle hge).symm
  · rintro rfl
    refine ⟨hunbroken, fun other hother hle hge => ?_⟩
    obtain ⟨hle', hge'⟩ := hbetween.contains hfront hback hother
    obtain ⟨start, stop⟩ := other
    obtain rfl := Nat.le_antisymm hle hle'
    obtain rfl := Nat.le_antisymm hge' hge
    rfl

/-! ## Operations -/

/-- Something that can be asked of a buffer. -/
inductive Operation where
  | setCaret (caret : Nat)
  | moveCaret (delta : Int)
  | insert (offset : Nat) (text : List Char)
  | remove (offset count : Nat)
  | clear
  | slice (start stop : Nat)
  | charAt (offset : Nat)
  | find (c : Char) (start : Nat)
  | findLast (c : Char) (stop : Nat)
  | lineRange (offset : Nat)
  | lineCount
  deriving DecidableEq, Repr

/-- What a buffer answers. -/
inductive Answer where
  | done
  | text (text : List Char)
  | char (c : Option Char)
  | offset (offset : Option Nat)
  | range (range : Span)
  | count (count : Nat)
  deriving DecidableEq, Repr

/-- Looks something up in a buffer. -/
def ask (look : Buffer → Answer) : Update Buffer Answer := do return look (← get)

/-- Carries out an operation. -/
def perform : Operation → Update Buffer Answer
  | .setCaret caret => (fun _ => .done) <$> setCaret caret
  | .moveCaret delta => (fun _ => .done) <$> moveCaret delta
  | .insert offset text => (fun _ => .done) <$> insert offset text
  | .remove offset count => .text <$> remove offset count
  | .clear => (fun _ => .done) <$> clear
  | .slice start stop => do return .text (← Update.ofExcept ((← get).slice start stop))
  | .charAt offset => ask fun b => .char (b.charAt? offset)
  | .find c start => ask fun b => .offset (b.find? c start)
  | .findLast c stop => ask fun b => .offset (b.findLast? c stop)
  | .lineRange offset => ask fun b => .range ⟨b.lineStart offset, b.lineStop offset⟩
  | .lineCount => ask fun b => .count b.lineCount

/-- Carries out operations one after the other, those that fail included. -/
def run (operations : List Operation) (b : Buffer) : Buffer :=
  operations.foldl (fun b operation => (perform operation).final b) b

namespace Operation

/-- Whether an operation asks for something outside of a text with so many characters. -/
def Leaves (length : Nat) : Operation → Prop
  | .setCaret caret => length < caret
  | .insert offset _ => length < offset
  | .remove offset count => length < offset + count
  | .slice start stop => stop < start ∨ length < stop
  | _ => False

instance (length : Nat) : (operation : Operation) → Decidable (operation.Leaves length)
  | .setCaret caret => inferInstanceAs (Decidable (length < caret))
  | .insert offset _ => inferInstanceAs (Decidable (length < offset))
  | .remove offset count => inferInstanceAs (Decidable (length < offset + count))
  | .slice start stop => inferInstanceAs (Decidable (stop < start ∨ length < stop))
  | .moveCaret _ | .clear | .charAt _ | .find _ _ | .findLast _ _ | .lineRange _ | .lineCount =>
    inferInstanceAs (Decidable False)

/-- What an operation makes of a text with a caret. -/
def effect : Operation → Zipper Char → Zipper Char
  | .setCaret caret, z => z.setCaret caret
  | .moveCaret delta, z => z.setCaret (min (z.caret + delta).toNat z.length)
  | .insert offset text, z => z.insert offset text
  | .remove offset count, z => z.remove offset count
  | .clear, _ => ⟨[], []⟩
  | _, z => z

/-- Whether an operation may be given an answer on a text. -/
def Answers (text : List Char) : Operation → Answer → Prop
  | .remove offset count, .text taken => taken = Span.slice ⟨offset, offset + count⟩ text
  | .slice start stop, .text part => part = Span.slice ⟨start, stop⟩ text
  | .charAt offset, .char c => c = text[offset]?
  | .find c start, .offset place => IsFirst text c start place
  | .findLast c stop, .offset place => IsLast text c stop place
  | .lineRange offset, .range range => offset ≤ text.length → IsLine text offset range
  | .lineCount, .count count => count = (text.splitOn '\n').length
  | .setCaret _, .done | .moveCaret _, .done | .insert _ _, .done | .clear, .done => True
  | _, _ => False

/-- How an operation that takes one text to another deals with the bytes of the texts: offsets are
turned into byte offsets, and the bytes are cut there. -/
def CutsBytes (before after : List Char) : Operation → Answer → Prop
  | .insert offset text, _ => ∃ start, byteOffset before offset = .ok start ∧
      utf8 after = (utf8 before).take start ++ utf8 text ++ (utf8 before).drop start
  | .remove offset count, .text taken => ∃ start size, byteOffset before offset = .ok start ∧
      byteOffset (before.drop offset) count = .ok size ∧
      utf8 taken = Span.slice ⟨start, start + size⟩ (utf8 before) ∧
      utf8 after = (utf8 before).take start ++ (utf8 before).drop (start + size)
  | .slice first stop, .text part => ∃ start size, byteOffset before first = .ok start ∧
      byteOffset (before.drop first) (stop - first) = .ok size ∧
      utf8 part = Span.slice ⟨start, start + size⟩ (utf8 before)
  | _, _ => True

end Operation

end Buffer

/-! ## One step -/

/-- The buffer that holds a text with a caret. -/
def Zipper.buffer (z : Zipper Char) : Buffer := ⟨z.toList, z.length, z.caret⟩

namespace Buffer

variable (z : Zipper Char)

theorem buffer_setCaret {caret : Nat} (h : caret ≤ z.length) :
    (z.setCaret caret).buffer = { z.buffer with caret } := by
  rw [Zipper.buffer, Zipper.caret_setCaret z h, Zipper.length, Zipper.toList_setCaret]
  rfl

theorem buffer_insert (offset : Nat) (text : List Char) :
    (z.insert offset text).buffer = z.buffer.inserted offset text := by
  have hlength : (z.insert offset text).length = z.length + text.length := by
    simp only [Zipper.length, Zipper.toList_insert, List.length_append, List.length_take,
      List.length_drop]
    omega
  rw [Zipper.buffer, hlength, Zipper.toList_insert, Zipper.caret_insert]
  rfl

theorem buffer_remove {offset count : Nat} (h : offset + count ≤ z.length) :
    (z.remove offset count).buffer = z.buffer.removed offset count := by
  have hlength : (z.remove offset count).length = z.length - count := by
    simp only [Zipper.length, Zipper.toList_remove, List.length_append, List.length_take,
      List.length_drop] at h ⊢
    omega
  rw [Zipper.buffer, hlength, Zipper.toList_remove, Zipper.caret_remove]
  rfl

/-- The byte offsets of the two ends of a range, the second counted from the first. -/
theorem exists_byteOffsets {text : List Char} {start stop : Nat} (h : start ≤ stop)
    (hstop : stop ≤ text.length) :
    ∃ first size, byteOffset text start = .ok first ∧
      byteOffset (text.drop start) (stop - start) = .ok size ∧
      first = byteLength (text.take start) ∧ first + size = byteLength (text.take stop) := by
  have hrest : stop - start ≤ (text.drop start).length := by
    rw [List.length_drop]
    omega
  refine ⟨_, _, byteOffset_of_le (h.trans hstop), byteOffset_of_le hrest, rfl, ?_⟩
  rw [← byteLength_append, ← List.take_add, Nat.add_sub_cancel' h]

theorem cutsBytes_insert {offset : Nat} (h : offset ≤ z.length) (text : List Char)
    (answer : Answer) :
    Operation.CutsBytes z.toList (z.insert offset text).toList (.insert offset text) answer := by
  refine ⟨_, byteOffset_of_le h, ?_⟩
  rw [Zipper.toList_insert, utf8_append, utf8_append, utf8_take, utf8_drop]

theorem cutsBytes_remove {offset count : Nat} (h : offset + count ≤ z.length) :
    Operation.CutsBytes z.toList (z.remove offset count).toList (.remove offset count)
      (.text (Span.slice ⟨offset, offset + count⟩ z.toList)) := by
  obtain ⟨start, size, hstart, hsize, hfirst, hlast⟩ :=
    exists_byteOffsets (Nat.le_add_right offset count) h
  rw [Nat.add_sub_cancel_left] at hsize
  refine ⟨start, size, hstart, hsize, ?_, ?_⟩
  · rw [hlast, hfirst, slice_utf8 (Nat.le_add_right offset count)]
  · rw [Zipper.toList_remove, utf8_append, utf8_take, utf8_drop, hlast, hfirst]

theorem cutsBytes_slice {start stop : Nat} (h : start ≤ stop) (hstop : stop ≤ z.length) :
    Operation.CutsBytes z.toList z.toList (.slice start stop)
      (.text (Span.slice ⟨start, stop⟩ z.toList)) := by
  obtain ⟨first, size, hstart, hsize, hfirst, hlast⟩ := exists_byteOffsets h hstop
  refine ⟨first, size, hstart, hsize, ?_⟩
  rw [hlast, hfirst, slice_utf8 h]

/-- An operation that stays inside the text completes. The buffer is then what the operation makes
of the text with its caret, and the answer is right. -/
theorem perform_of_not_leaves {operation : Operation} (h : ¬ operation.Leaves z.length) :
    ∃ answer, perform operation z.buffer = .ok answer (operation.effect z).buffer ∧
      operation.Answers z.toList answer ∧
      operation.CutsBytes z.toList (operation.effect z).toList answer := by
  cases operation with
  | setCaret caret =>
    have hle : caret ≤ z.length := Nat.le_of_not_lt h
    refine ⟨.done, ?_, trivial, trivial⟩
    rw [Operation.effect, buffer_setCaret z hle]
    exact Update.map_of_ok (setCaret_of_le hle)
  | moveCaret delta =>
    refine ⟨.done, ?_, trivial, trivial⟩
    rw [Operation.effect, buffer_setCaret z (Nat.min_le_right _ _)]
    rfl
  | insert offset text =>
    have hle : offset ≤ z.length := Nat.le_of_not_lt h
    refine ⟨.done, ?_, trivial, cutsBytes_insert z hle text .done⟩
    rw [Operation.effect, buffer_insert]
    exact Update.map_of_ok (insert_of_le rfl hle text)
  | remove offset count =>
    have hle : offset + count ≤ z.length := Nat.le_of_not_lt h
    refine ⟨.text (Span.slice ⟨offset, offset + count⟩ z.toList), ?_, rfl, cutsBytes_remove z hle⟩
    rw [Operation.effect, buffer_remove z hle, Span.slice, Nat.add_sub_cancel_left]
    exact Update.map_of_ok (remove_of_le rfl hle)
  | clear => exact ⟨.done, rfl, trivial, trivial⟩
  | slice start stop =>
    have hle : start ≤ stop := Nat.le_of_not_lt fun hlt => h (Or.inl hlt)
    have hstop : stop ≤ z.length := Nat.le_of_not_lt fun hlt => h (Or.inr hlt)
    have hslice : z.buffer.slice start stop = .ok (Span.slice ⟨start, stop⟩ z.toList) :=
      slice_of_le hle hstop
    refine ⟨.text (Span.slice ⟨start, stop⟩ z.toList), ?_, rfl, cutsBytes_slice z hle hstop⟩
    rw [perform, Update.get_bind, hslice]
    rfl
  | charAt offset => exact ⟨_, rfl, rfl, trivial⟩
  | find c start => exact ⟨_, rfl, isFirst_find? z.buffer c start, trivial⟩
  | findLast c stop => exact ⟨_, rfl, isLast_findLast? z.buffer c stop, trivial⟩
  | lineRange offset =>
    exact ⟨_, rfl, fun hle => (isLine_iff (b := z.buffer) rfl hle _).mpr rfl, trivial⟩
  | lineCount => exact ⟨_, rfl, (length_splitOn '\n' z.toList).symm, trivial⟩

/-- An operation that asks for something outside of the text fails and leaves the buffer as it
is. -/
theorem perform_of_leaves {operation : Operation} (h : operation.Leaves z.length) :
    ∃ fault, perform operation z.buffer = .error fault z.buffer := by
  cases operation with
  | setCaret caret => exact ⟨_, Update.map_of_error (setCaret_of_lt h)⟩
  | insert offset text => exact ⟨_, Update.map_of_error (insert_of_lt h text)⟩
  | remove offset count =>
    obtain ⟨fault, hfault⟩ := remove_of_lt (b := z.buffer) h
    exact ⟨fault, Update.map_of_error hfault⟩
  | slice start stop =>
    obtain ⟨fault, hfault⟩ : ∃ fault, z.buffer.slice start stop = .error fault := by
      rcases Nat.lt_or_ge stop start with hlt | hle
      · exact slice_of_inverted hlt
      · exact slice_of_lt hle (h.resolve_left (Nat.not_lt.mpr hle))
    refine ⟨fault, ?_⟩
    rw [perform, Update.get_bind, hfault]
    rfl
  | moveCaret _ | clear | charAt _ | find _ _ | findLast _ _ | lineRange _ | lineCount =>
    exact absurd h id

/-! ## Runs -/

/-- What operations make of a text with a caret; those that leave the text are passed over. -/
def runZipper (operations : List Operation) (z : Zipper Char) : Zipper Char :=
  operations.foldl
    (fun z operation => if operation.Leaves z.length then z else operation.effect z) z

/-- A buffer behaves as a text with a caret. -/
structure Refines (b : Buffer) (z : Zipper Char) : Prop where
  text_eq : b.text = z.toList
  length_eq : b.length = z.toList.length
  caret_eq : b.caret = z.before.length
  caret_le : b.caret ≤ b.length
  fails : ∀ operation, operation.Leaves z.length →
    ∃ fault, perform operation b = .error fault b
  performs : ∀ operation, ¬ operation.Leaves z.length →
    ∃ answer, perform operation b = .ok answer (operation.effect z).buffer ∧
      operation.Answers z.toList answer ∧
      operation.CutsBytes z.toList (operation.effect z).toList answer
  /-- An insertion is taken back by removing as much. -/
  takes_back : ∀ offset text, offset ≤ b.length →
    ∃ c, insert offset text b = .ok () c ∧ remove offset text.length c = .ok text b
  /-- There is one line around an offset. -/
  line_unique : ∀ offset, offset ≤ b.length → ∀ range,
    IsLine b.text offset range ↔ range = ⟨b.lineStart offset, b.lineStop offset⟩

theorem takes_back {offset : Nat} (h : offset ≤ z.length) (text : List Char) :
    ∃ c, insert offset text z.buffer = .ok () c ∧
      remove offset text.length c = .ok text z.buffer := by
  have htake : (z.toList.take offset).length = offset := List.length_take_of_le h
  have hroom : offset + text.length ≤ (z.insert offset text).length := by
    rw [Zipper.length, Zipper.toList_insert, List.length_append, List.length_append, htake]
    omega
  have htaken : ((z.insert offset text).toList.drop offset).take text.length = text := by
    rw [Zipper.toList_insert, List.append_assoc, List.drop_left' htake, List.take_left]
  refine ⟨_, insert_of_le rfl h text, ?_⟩
  rw [← buffer_insert, remove_of_le rfl hroom, ← buffer_remove _ hroom, Zipper.remove_insert z h]
  exact congrArg (EStateM.Result.ok · _) htaken

theorem refines_buffer : Refines z.buffer z where
  text_eq := rfl
  length_eq := rfl
  caret_eq := rfl
  caret_le := z.caret_le_length
  fails _ h := perform_of_leaves z h
  performs _ h := perform_of_not_leaves z h
  takes_back _ text h := takes_back z h text
  line_unique _ h := isLine_iff rfl h

/-- Operations do to a buffer what they do to its text with the caret. -/
theorem run_buffer (operations : List Operation) :
    run operations z.buffer = (runZipper operations z).buffer := by
  induction operations generalizing z with
  | nil => rfl
  | cons operation operations ih =>
    simp only [run, runZipper, List.foldl_cons] at ih ⊢
    by_cases h : operation.Leaves z.length
    · obtain ⟨fault, hfault⟩ := perform_of_leaves z h
      rw [Update.final_of_error hfault, if_pos h, ih]
    · obtain ⟨answer, hok, -⟩ := perform_of_not_leaves z h
      rw [Update.final_of_ok hok, if_neg h, ih]

/-- **A buffer is a text with a caret.** After any operations, those that failed included, a buffer
stands for the text and the caret that the operations make of the text it was opened with. An
operation fails exactly if it asks for something outside of the text, and then changes nothing. -/
theorem refines_zipper_run (text : List Char) (operations : List Operation) :
    Refines (run operations (ofText text)) (runZipper operations ⟨[], text⟩) := by
  have hrun : run operations (ofText text) = (runZipper operations ⟨[], text⟩).buffer :=
    run_buffer ⟨[], text⟩ operations
  rw [hrun]
  exact refines_buffer _

/-- Text at the caret goes before it, and a removal that reaches too far is passed over. -/
example :
    runZipper [.setCaret 1, .insert 1 ['字'], .remove 1 5, .remove 0 1] ⟨[], ['「', '」']⟩ =
      ⟨['字'], ['」']⟩ := by
  decide

end Buffer

end SourceEditor

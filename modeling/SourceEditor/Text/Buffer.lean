import SourceEditor.Text.Offset

/-!
# Text buffers

A buffer is a text with a caret. The caret stands before a character or at the end, and keeps its
place when text is inserted or removed elsewhere: it stays before the same character, goes to the
end of what is inserted at it, and to the start of a removed range that it was inside of.

The number of characters is kept beside the text, so that bounds are checked without counting.
-/

namespace SourceEditor

/-- A text with a caret. -/
structure Buffer where
  text : List Char
  /-- The number of characters of the text. -/
  length : Nat
  caret : Nat
  deriving DecidableEq, Repr

namespace Buffer

def empty : Buffer := ⟨[], 0, 0⟩

/-- A buffer with the caret before its first character. -/
def ofText (text : List Char) : Buffer := ⟨text, text.length, 0⟩

def isEmpty (b : Buffer) : Bool := b.length == 0

/-- Puts the caret at an offset. -/
def setCaret (caret : Nat) : Update Buffer Unit := do
  let b ← get
  if caret ≤ b.length then set { b with caret } else throw (.caretOutOfBounds caret b.length)

/-- Moves the caret, as far as the text goes. -/
def moveCaret (delta : Int) : Update Buffer Unit :=
  modify fun b => { b with caret := min (b.caret + delta).toNat b.length }

def charAt? (b : Buffer) (offset : Nat) : Option Char := b.text[offset]?

/-- The text between two offsets. The first is checked first, then their order, and then whether the
rest of the text is long enough. -/
def slice (b : Buffer) (start stop : Nat) : Except Fault (List Char) := do
  let (_, rest) ← cutAt b.text start
  if stop < start then throw .overflow
  let (part, _) ← cutAt rest (stop - start)
  return part

/-- Where the caret goes when `count` characters are inserted at `offset`. -/
def caretAfterInsert (caret offset count : Nat) : Nat :=
  if offset ≤ caret then caret + count else caret

/-- Inserts text. -/
def insert (offset : Nat) (text : List Char) : Update Buffer Unit := do
  let b ← get
  if offset ≤ b.length then
    let (before, after) ← Update.ofExcept (cutAt b.text offset)
    set
      { b with
        text := before ++ text ++ after
        length := b.length + text.length
        caret := caretAfterInsert b.caret offset text.length }
  else throw (.insertOutOfBounds offset b.length)

/-- Where the caret goes when `count` characters are removed at `offset`. -/
def caretAfterRemove (caret offset count : Nat) : Nat :=
  if offset + count < caret then caret - count else if offset < caret then offset else caret

/-- Removes characters and gives them back. -/
def remove (offset count : Nat) : Update Buffer (List Char) := do
  let b ← get
  let stop ← Update.rangeStop offset count b.length
  if stop ≤ b.length then
    let (before, rest) ← Update.ofExcept (cutAt b.text offset)
    let (removed, after) ← Update.ofExcept (cutAt rest count)
    set
      { b with
        text := before ++ after
        length := b.length - count
        caret := caretAfterRemove b.caret offset count }
    return removed
  else throw (.removeOutOfBounds offset stop b.length)

/-- Removes everything. -/
def clear : Update Buffer Unit := set empty

/-- The number of lines: one more than there are newlines. -/
def lineCount (b : Buffer) : Nat := b.text.count '\n' + 1

/-- The offset of the first `c` at or after an offset. -/
def find? (b : Buffer) (c : Char) (start : Nat) : Option Nat :=
  ((b.text.drop start).findIdx? (· == c)).map (· + start)

/-- The offset of the last `c` before an offset. -/
def findLast? (b : Buffer) (c : Char) (stop : Nat) : Option Nat :=
  let before := b.text.take stop
  (before.reverse.findIdx? (· == c)).map (before.length - 1 - ·)

/-- The offset at which the line of an offset starts. -/
def lineStart (b : Buffer) (offset : Nat) : Nat :=
  match b.findLast? '\n' offset with
  | some i => i + 1
  | none => 0

/-- The offset of the newline that ends the line of an offset, or the end of the text. -/
def lineStop (b : Buffer) (offset : Nat) : Nat := (b.find? '\n' offset).getD b.length

end Buffer

end SourceEditor

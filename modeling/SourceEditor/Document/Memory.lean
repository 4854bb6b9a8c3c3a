import SourceEditor.Document.Surface
import SourceEditor.Style.Range
import SourceEditor.Text.Buffer

/-!
# Documents in memory

A surface that keeps everything it is told: the characters and their styles, the messages, and how
often it was locked and written to. Ranges that leave the document are faults, and so is giving back
a lock that nobody holds.
-/

namespace SourceEditor

/-- A document in memory. -/
structure MemoryDocument where
  chars : List Char := []
  /-- The style of each character. -/
  styles : List (Option Style) := []
  caret : Nat := 0
  /-- The tab size of the lines, once it is set. -/
  tabSize : Option Nat := none
  lineCount : Nat := 0
  /-- The messages, in order. -/
  messages : List String := []
  /-- How many locks are held. -/
  lockDepth : Nat := 0
  /-- How many locks were ever taken. -/
  lockCount : Nat := 0
  /-- How often styles were changed. -/
  styleChanges : Nat := 0
  /-- How often the tab size was changed. -/
  paragraphChanges : Nat := 0
  /-- How many of these changes were made without a lock. -/
  unlockedWrites : Nat := 0
  deriving DecidableEq, Repr

namespace MemoryDocument

/-- A document that holds unstyled text. -/
def ofText (text : List Char) : MemoryDocument :=
  { chars := text, styles := List.replicate text.length none }

def length (d : MemoryDocument) : Nat := d.chars.length

def isLocked (d : MemoryDocument) : Bool := 0 < d.lockDepth

def styleAt? (d : MemoryDocument) (offset : Nat) : Option Style := d.styles[offset]?.join

/-- Fails unless a range lies inside the document. -/
def checkRange (offset count : Nat) : Update MemoryDocument Unit := do
  let d ← get
  let stop ← Update.rangeStop offset count d.length
  if d.length < stop then throw (.rangeOutOfBounds offset stop d.length)

def setCaret (caret : Nat) : Update MemoryDocument Unit := do
  let d ← get
  if caret ≤ d.length then set { d with caret } else throw (.documentCaretOutOfBounds caret)

/-- The document with unstyled text inserted at an offset. -/
def inserted (d : MemoryDocument) (offset : Nat) (text : List Char) : MemoryDocument :=
  { d with
    chars := d.chars.take offset ++ text ++ d.chars.drop offset
    styles := d.styles.take offset ++ List.replicate text.length none ++ d.styles.drop offset
    caret := Buffer.caretAfterInsert d.caret offset text.length }

def insert (offset : Nat) (text : List Char) : Update MemoryDocument Unit := do
  checkRange offset 0
  modify fun d => d.inserted offset text

/-- The document without `count` characters at an offset. -/
def removed (d : MemoryDocument) (offset count : Nat) : MemoryDocument :=
  { d with
    chars := d.chars.take offset ++ d.chars.drop (offset + count)
    styles := d.styles.take offset ++ d.styles.drop (offset + count)
    caret := Buffer.caretAfterRemove d.caret offset count }

def remove (offset count : Nat) : Update MemoryDocument Unit := do
  checkRange offset count
  modify fun d => d.removed offset count

/-- The number of writes without a lock after one more write. -/
def countedWrites (d : MemoryDocument) : Nat :=
  if d.isLocked then d.unlockedWrites else d.unlockedWrites + 1

def changeStyle (offset count : Nat) (style : Style) (replace : Bool) :
    Update MemoryDocument Unit := do
  checkRange offset count
  modify fun d =>
    { d with
      styles := changeRange (style.change replace) offset count d.styles
      styleChanges := d.styleChanges + 1
      unlockedWrites := d.countedWrites }

def changeParagraph (offset count tabSize : Nat) : Update MemoryDocument Unit := do
  checkRange offset count
  modify fun d =>
    { d with
      tabSize := some tabSize
      paragraphChanges := d.paragraphChanges + 1
      unlockedWrites := d.countedWrites }

def lock : Update MemoryDocument Unit :=
  modify fun d => { d with lockDepth := d.lockDepth + 1, lockCount := d.lockCount + 1 }

def unlock : Update MemoryDocument Unit := do
  let d ← get
  if d.isLocked then set { d with lockDepth := d.lockDepth - 1 } else throw .notLocked

def setLineCount (count : Nat) : Update MemoryDocument Unit :=
  modify fun d => { d with lineCount := count }

def message (text : String) : Update MemoryDocument Unit :=
  modify fun d => { d with messages := d.messages ++ [text] }

instance : Surface MemoryDocument where
  length := length
  caret := MemoryDocument.caret
  setCaret := setCaret
  insert := insert
  remove := remove
  changeStyle := changeStyle
  changeParagraph := changeParagraph
  lock := lock
  unlock := unlock
  setLineCount := setLineCount
  message := message

end MemoryDocument

end SourceEditor

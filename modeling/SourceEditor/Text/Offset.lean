import SourceEditor.Fault

/-!
# Character offsets and byte offsets

Offsets in the editor count characters; files and external parsers count the bytes of the UTF-8
form. `byteOffset` goes from characters to bytes and `ByteIndex` back, where every byte of a
character maps to the offset of that character. A text is cut at bytes (`cutAtByte`).
-/

namespace SourceEditor

/-- The number of bytes of a text. -/
def byteLength : List Char → Nat
  | [] => 0
  | c :: cs => c.utf8Size + byteLength cs

/-- The byte offsets at which the characters of a text start, the first of them at `start`. -/
def byteStarts (start : Nat) : List Char → List Nat
  | [] => []
  | c :: cs => start :: byteStarts (start + c.utf8Size) cs

/-- The byte offset of the character at a character offset. The offset just past the last character
maps to the number of bytes, and one beyond that is a fault. -/
def byteOffset (text : List Char) (offset : Nat) : Except Fault Nat :=
  if offset = 0 then .ok 0
  else
    match (byteStarts 0 text)[offset]? with
    | some byte => .ok byte
    | none =>
      if offset = text.length then .ok (byteLength text)
      else .error (.offsetOutOfBounds offset text.length)

/-- Cuts a text at a byte offset, which must lie between characters. -/
def cutAtByte : (text : List Char) → (byte : Nat) → Except Fault (List Char × List Char)
  | text, 0 => .ok ([], text)
  | [], _ + 1 => .error .insideCharacter
  | c :: cs, byte + 1 =>
    if c.utf8Size ≤ byte + 1 then
      (cutAtByte cs (byte + 1 - c.utf8Size)).map fun parts => (c :: parts.1, parts.2)
    else .error .insideCharacter

/-- Cuts a text at a character offset, by way of the bytes. -/
def cutAt (text : List Char) (offset : Nat) : Except Fault (List Char × List Char) := do
  cutAtByte text (← byteOffset text offset)

/-- The character offset of every byte of a text, and after them the number of characters. -/
structure ByteIndex where
  chars : Array Nat
  deriving DecidableEq, Repr

namespace ByteIndex

/-- The character offsets of the bytes of a text whose first character has offset `start`. -/
def offsets (start : Nat) : List Char → List Nat
  | [] => [start]
  | c :: cs => List.replicate c.utf8Size start ++ offsets (start + 1) cs

def ofText (text : List Char) : ByteIndex := ⟨(offsets 0 text).toArray⟩

/-- The character offset of a byte. Past the end of the text it is the number of characters. -/
def get (index : ByteIndex) (byte : Nat) : Nat :=
  index.chars[byte]?.getD (index.chars.back?.getD 0)

end ByteIndex

end SourceEditor

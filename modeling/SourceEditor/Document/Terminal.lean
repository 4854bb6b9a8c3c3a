import SourceEditor.Document.Surface
import SourceEditor.Style.Range
import SourceEditor.Text.Offset

/-!
# Documents on a terminal

A surface that is printed with escape sequences for its styles. It puts a caret that is set too far
at its end, takes the tab size of any range for that of the whole, and counts no locks. A range that
leaves the document is a fault.

`TerminalDocument.printed` is the printed form. Each change of style is written as a reset and then
the codes of the new style, no style reaches past the end of a line, and tabs are filled up with
spaces. It is put together from pieces, whose sizes are known before the spaces are written out:
`TerminalDocument.render` is a fault if they come to more than one text may take up.
-/

namespace SourceEditor

/-- A character and how it looks. -/
structure Cell where
  char : Char
  style : Option Style
  deriving DecidableEq, Repr

/-- A document on a terminal. -/
structure TerminalDocument where
  cells : List Cell := []
  caret : Nat := 0
  /-- The tab size of the lines, once it is set. -/
  tabSize : Option Nat := none
  lineCount : Nat := 0
  /-- The messages, in order. -/
  messages : List String := []
  deriving DecidableEq, Repr

namespace TerminalDocument

def length (d : TerminalDocument) : Nat := d.cells.length

def setCaret (caret : Nat) : Update TerminalDocument Unit :=
  modify fun d => { d with caret := min caret d.length }

/-- Fails unless a range lies inside the document; gives its end. -/
def checkRange (offset count : Nat) : Update TerminalDocument Nat := do
  let d ← get
  let stop ← Update.rangeStop offset count d.length
  if stop ≤ d.length then return stop else throw .badRange

def insert (offset : Nat) (text : List Char) : Update TerminalDocument Unit := do
  let _ ← checkRange offset 0
  modify fun d =>
    { d with
      cells := d.cells.take offset ++ text.map (⟨·, none⟩) ++ d.cells.drop offset
      caret := if offset ≤ d.caret then d.caret + text.length else d.caret }

def remove (offset count : Nat) : Update TerminalDocument Unit := do
  let stop ← checkRange offset count
  modify fun d =>
    let cells := d.cells.take offset ++ d.cells.drop stop
    { d with cells, caret := min d.caret cells.length }

def changeStyle (offset count : Nat) (style : Style) (replace : Bool) :
    Update TerminalDocument Unit := do
  let _ ← checkRange offset count
  modify fun d =>
    { d with
      cells := changeRange (fun cell => { cell with style := style.change replace cell.style })
        offset count d.cells }

instance : Surface TerminalDocument where
  length := length
  caret := TerminalDocument.caret
  setCaret := setCaret
  insert := insert
  remove := remove
  changeStyle := changeStyle
  changeParagraph _ _ tabSize := modify fun d => { d with tabSize := some tabSize }
  lock := pure ()
  unlock := pure ()
  setLineCount count := modify fun d => { d with lineCount := count }
  message text := modify fun d => { d with messages := d.messages ++ [text] }

/-! ## The printed form -/

/-- The decimal digits of a number. -/
def decimal (n : Nat) : List Char := Nat.toDigits 10 n

/-- The escape sequence with the given codes. -/
def sequence (codes : List (List Char)) : List Char :=
  ['\x1b', '['] ++ List.intercalate [';'] codes ++ ['m']

/-- The escape sequence that clears the style. -/
def reset : List Char := sequence [['0']]

/-- The code of a color for the plane with the given number. -/
def colorCode (plane : Nat) (c : Color) : List Char :=
  List.intercalate [';']
    [decimal plane, ['2'], decimal c.red.toNat, decimal c.green.toNat, decimal c.blue.toNat]

/-- The codes that set a style. -/
def styleCodes (s : Style) : List (List Char) :=
  (if s.bold then [['1']] else []) ++ (if s.italic then [['3']] else []) ++
    (if s.underline then [['4']] else []) ++ (s.foreground.map (colorCode 38)).toList ++
    (s.background.map (colorCode 48)).toList

/-- What is written to go from one style to another. -/
def transition (old new : Option Style) : List Char :=
  if new = old then []
  else
    match new with
    | some s => reset ++ sequence (styleCodes s)
    | none => reset

/-- The number of a line, set to the right in the width of the gutter, and a space. -/
def gutter (width line : Nat) : List Char :=
  let digits := decimal line
  List.replicate (width - digits.length) ' ' ++ digits ++ [' ']

/-- A part of the printed form. -/
inductive Piece where
  | text (chars : List Char)
  /-- The spaces that fill up a tab. -/
  | spaces (count : Nat)
  deriving DecidableEq, Repr

namespace Piece

def chars : Piece → List Char
  | .text cs => cs
  | .spaces count => List.replicate count ' '

/-- The number of bytes of a piece. -/
def size : Piece → Nat
  | .text cs => byteLength cs
  | .spaces count => count

/-- The number of bytes of pieces taken together. -/
def totalSize : List Piece → Nat
  | [] => 0
  | p :: ps => p.size + totalSize ps

end Piece

/-- How a document is printed. -/
structure PrintFormat where
  /-- The distance of tab stops. -/
  tab : Nat
  /-- The width of the line numbers, if they are printed. -/
  gutterWidth : Option Nat
  deriving DecidableEq, Repr

namespace PrintFormat

/-- What is printed in front of a line. -/
def lineHead (format : PrintFormat) (line : Nat) : List Char :=
  match format.gutterWidth with
  | some width => gutter width line
  | none => []

/-- Prints cells, from the given style, column and line on. -/
def print (format : PrintFormat) :
    (current : Option Style) → (column line : Nat) → List Cell → List Piece
  | some _, _, _, [] => [.text reset]
  | none, _, _, [] => []
  | current, column, line, cell :: cells =>
    .text (transition current cell.style) ::
      if cell.char = '\n' then
        .text (transition cell.style none ++ '\n' :: format.lineHead (line + 1)) ::
          print format none 0 (line + 1) cells
      else if cell.char = '\t' then
        let count := format.tab - column % format.tab
        .spaces count :: print format cell.style (column + count) line cells
      else
        .text [cell.char] :: print format cell.style (column + 1) line cells

end PrintFormat

/-- How the document is printed, with or without line numbers. -/
def printFormat (d : TerminalDocument) (numbered : Bool) : PrintFormat where
  tab := max (d.tabSize.getD 4) 1
  gutterWidth := if numbered then some (decimal (max d.lineCount 1)).length else none

/-- The pieces of the printed form of a document. -/
def pieces (d : TerminalDocument) (numbered : Bool) : List Piece :=
  let format := d.printFormat numbered
  if d.cells.isEmpty then [] else .text (format.lineHead 1) :: format.print none 0 1 d.cells

/-- The printed form of a document. -/
def printed (d : TerminalDocument) (numbered : Bool) : List Char :=
  (d.pieces numbered).flatMap Piece.chars

/-- The number of bytes of the printed form. -/
def printedSize (d : TerminalDocument) (numbered : Bool) : Nat :=
  Piece.totalSize (d.pieces numbered)

/-- Prints a document, unless its printed form is too long. -/
def render (d : TerminalDocument) (numbered : Bool) : Except Fault (List Char) :=
  if d.printedSize numbered ≤ maxAllocation then .ok (d.printed numbered) else .error .tooLong

end TerminalDocument

end SourceEditor

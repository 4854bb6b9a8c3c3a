import SourceEditor.Text.Hexadecimal
import SourceEditor.Text.Offset
import SourceEditor.Text.Quoted

/-!
# Colors

A color has three components of eight bits. Its written form is `#rrggbb`.
-/

namespace SourceEditor

/-- A color by its red, green and blue components. -/
structure Color where
  red : UInt8
  green : UInt8
  blue : UInt8
  deriving DecidableEq, Repr

namespace Color

/-- The color whose components are the three lowest bytes of a number, red the highest of them. -/
def ofNat (n : Nat) : Color :=
  ⟨UInt8.ofNat (n / 0x10000), UInt8.ofNat (n / 0x100), UInt8.ofNat n⟩

/-- The two hexadecimal digits of a component. -/
def component (x : UInt8) : List Char :=
  [Hexadecimal.digit (x.toNat / 16), Hexadecimal.digit (x.toNat % 16)]

/-- The written form of a color. -/
def toChars (c : Color) : List Char :=
  '#' :: (component c.red ++ component c.green ++ component c.blue)

/-- Reads the six bytes after the mark: digits, the first of which may be a plus sign instead. -/
def readNumber? : List Char → Option Nat
  | '+' :: ds => Hexadecimal.read? 0 ds
  | ds => Hexadecimal.read? 0 ds

/-- Reads the written form of a color. -/
def read? : List Char → Option Color
  | '#' :: ds => if byteLength ds = 6 then (readNumber? ds).map ofNat else none
  | _ => none

/-- The message for a text that is no color. -/
def invalidMessage (text : List Char) : String :=
  "invalid color " ++ String.ofList (Quoted.quote text) ++ ", expected #rrggbb"

end Color

end SourceEditor

import SourceEditor.Text.Hexadecimal
import SourceEditor.Unicode.Unprintable

/-!
# Quoted text

The form in which listings and messages show a piece of text: between double quotes, on one line,
with an escape for every character that would not be seen as itself.
-/

namespace SourceEditor.Quoted

/-- How a character is written between quotes. -/
def escape (c : Char) : List Char :=
  match c with
  | '\t' => ['\\', 't']
  | '\r' => ['\\', 'r']
  | '\n' => ['\\', 'n']
  | '"' => ['\\', '"']
  | '\\' => ['\\', '\\']
  | '\x00' => ['\\', '0']
  | c =>
    if Unicode.isUnprintable c then
      ['\\', 'u', '{'] ++ Hexadecimal.write c.toNat ++ ['}']
    else [c]

/-- A text in quotes. -/
def quote (text : List Char) : List Char := '"' :: text.flatMap escape ++ ['"']

end SourceEditor.Quoted

import SourceEditor.Fault
import SourceEditor.Style.Basic

/-!
# Document surfaces

A surface shows a document: it holds the characters, how they look, and a caret. An editing session
keeps a surface in step with its own text and uses nothing of it but the operations here.

Styles are written under a write lock, which `Surface.guarded` holds for as long as an update runs
and gives back also when the update fails.
-/

namespace SourceEditor

/-- What an editing session needs of a document. -/
class Surface (D : Type) where
  length : D → Nat
  caret : D → Nat
  setCaret : (caret : Nat) → Update D Unit
  insert : (offset : Nat) → (text : List Char) → Update D Unit
  remove : (offset count : Nat) → Update D Unit
  /-- Gives a style to characters: in place of the one they have, or laid over it. -/
  changeStyle : (offset count : Nat) → Style → (replace : Bool) → Update D Unit
  /-- Sets the tab size of the lines in a range. -/
  changeParagraph : (offset count tabSize : Nat) → Update D Unit
  lock : Update D Unit
  unlock : Update D Unit
  /-- Says how many lines there are. -/
  setLineCount : (count : Nat) → Update D Unit
  /-- Shows a short text to the user. -/
  message : String → Update D Unit

namespace Surface

/-- Runs an update under the write lock. -/
def guarded {D α : Type} [Surface D] (body : Update D α) : Update D α := do
  lock
  Update.lastly body unlock

end Surface

/-- What becomes of a style when another one is given to its character. -/
def Style.change (style : Style) (replace : Bool) : Option Style → Option Style
  | none => some style
  | some old => some (if replace then style else style.onto old)

end SourceEditor

import SourceEditor.Style.Color

/-!
# Styles

How characters look. `Style.onto` lays one style over another: its colors win where it has them, and
what either of the two switches on is on.
-/

namespace SourceEditor

/-- How a character looks. -/
structure Style where
  foreground : Option Color := none
  background : Option Color := none
  bold : Bool := false
  italic : Bool := false
  underline : Bool := false
  deriving DecidableEq, Repr

namespace Style

/-- The style that only sets the color of the letters. -/
def colored (n : Nat) : Style := { foreground := some (Color.ofNat n) }

/-- Lays a style over a base. -/
def onto (top base : Style) : Style where
  foreground := top.foreground.or base.foreground
  background := top.background.or base.background
  bold := top.bold || base.bold
  italic := top.italic || base.italic
  underline := top.underline || base.underline

end Style

end SourceEditor

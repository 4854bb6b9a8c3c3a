import SourceEditor.Style.Scheme
import SourceEditor.Text.EditPlan

/-!
# Options of an editing session
-/

namespace SourceEditor

/-- How a session highlights and edits. -/
structure Options where
  /-- Whether tokens are highlighted. -/
  tokenHighlighting : Bool := true
  /-- Whether names are highlighted by what they stand for. -/
  semanticHighlighting : Bool := true
  tabSize : Nat := 4
  /-- Whether a typed tab becomes spaces. -/
  indentWithSpaces : Bool := false
  /-- How many edits can be taken back. -/
  undoLimit : Nat := 100
  colors : Scheme := .standard
  deriving DecidableEq

/-- The edit policy of a session with these options. -/
def Options.policy (o : Options) : Except Fault EditPolicy :=
  if o.indentWithSpaces then EditPolicy.expandingTabs {} o.tabSize else .ok {}

end SourceEditor

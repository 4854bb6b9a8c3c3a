import SourceEditor.Style.Scheme
import SourceEditor.Syntax.Node

/-!
# Highlights

A highlight says that a range of the source is to be shown as belonging to a category.
-/

namespace SourceEditor

/-- A range of the source and the category it is shown as. -/
structure Highlight where
  range : Span
  category : Category
  deriving DecidableEq, Repr

/-- The highlights that a rule finds in a syntax tree. The rule looks at one node at a time, in the
order of the walk, and is not asked about white space. -/
def SyntaxTree.highlights (rule : Cursor NodeInfo → Option Highlight) (tree : SyntaxTree) :
    List Highlight :=
  (tree.root.cursors.filter (·.kind != whitespaceKind)).filterMap rule

end SourceEditor

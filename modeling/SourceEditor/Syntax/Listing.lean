import SourceEditor.Syntax.Node
import SourceEditor.Text.Quoted

/-!
# Listings of syntax trees

A syntax tree as text: one line for each node, indented by its depth, with the kind, the field, the
range and, for a childless node, the source that it covers.
-/

namespace SourceEditor

/-- The line of a node, without indentation. -/
def NodeInfo.describe (n : NodeInfo) (isLeaf : Bool) (source : List Char) : String :=
  n.kind ++ (match n.field with | some f => " (" ++ f ++ ")" | none => "") ++
    s!" {n.range.start}..{n.range.stop}" ++
    (if isLeaf then " " ++ String.ofList (Quoted.quote (n.text source)) else "")

mutual

/-- The lines of a tree whose root has the given depth. -/
def Tree.listing (source : List Char) (depth : Nat) : Tree NodeInfo → String
  | .node n ts =>
    String.ofList (List.replicate (2 * depth) ' ') ++ n.describe ts.isEmpty source ++ "\n" ++
      listingAll source (depth + 1) ts

/-- The lines of several trees, one tree after the other. -/
def Tree.listingAll (source : List Char) (depth : Nat) : List (Tree NodeInfo) → String
  | [] => ""
  | t :: ts => t.listing source depth ++ listingAll source depth ts

end

/-- The listing of a whole tree. -/
def SyntaxTree.listing (tree : SyntaxTree) : String := tree.root.listing tree.source 0

end SourceEditor

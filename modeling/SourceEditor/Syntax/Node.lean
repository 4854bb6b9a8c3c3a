import SourceEditor.Syntax.Tree

/-!
# Syntax trees

The nodes of a syntax tree carry a kind, the field that they fill in their parent, and the ranges of
the source that they cover, counted in characters and in bytes. A syntax tree is lossless: source
that no child of a node covers is kept in leaves of the kinds `whitespaceKind` and `textKind`.

* `SyntaxTree.nodeAt` is the innermost node at an offset.
* `SyntaxTree.hasErrors` says whether any node is marked as an error.
-/

namespace SourceEditor

/-- A half-open range of offsets. -/
structure Span where
  start : Nat
  stop : Nat
  deriving DecidableEq, Repr

/-- Whether an offset lies in a range. -/
def Span.contains (s : Span) (offset : Nat) : Bool := s.start ≤ offset && offset < s.stop

/-- The part of a list that a range covers. -/
def Span.slice {α : Type} (s : Span) (xs : List α) : List α :=
  (xs.drop s.start).take (s.stop - s.start)

/-- The kind of leaves that hold white space only. -/
def whitespaceKind : String := "whitespace"

/-- The kind of leaves that hold source which no node covers and which is not white space. -/
def textKind : String := "text"

/-- What a node of a syntax tree says about the source. -/
structure NodeInfo where
  /-- The number of the node in the tree, counted from the root in the order of the walk. -/
  id : Nat
  kind : String
  /-- The field that the node fills in its parent. -/
  field : Option String
  named : Bool
  error : Bool
  /-- The characters that the node covers. -/
  range : Span
  /-- The bytes that the node covers. -/
  bytes : Span
  deriving DecidableEq, Repr

/-- Whether a node kind carries no meaning for the grammar: white space and comments. -/
def isTriviaKind (kind : String) : Bool :=
  kind == whitespaceKind ||
    ["line_comment", "block_comment", "doc_comment", "shebang"].contains kind

namespace NodeInfo

def isTrivia (n : NodeInfo) : Bool := isTriviaKind n.kind

/-- The source that a node covers. -/
def text (n : NodeInfo) (source : List Char) : List Char := n.range.slice source

end NodeInfo

/-- The syntax tree of a source text. -/
structure SyntaxTree where
  source : List Char
  root : Tree NodeInfo
  deriving Repr

mutual

/-- The innermost node of `t` at an offset: `t` itself unless a child covers the offset. -/
def Tree.nodeAt (offset : Nat) : Tree NodeInfo → NodeInfo
  | .node n ts => (Tree.nodeAtAny offset ts).getD n

/-- The innermost node at an offset in the first of several trees that covers it. -/
def Tree.nodeAtAny (offset : Nat) : List (Tree NodeInfo) → Option NodeInfo
  | [] => none
  | t :: ts => if t.label.range.contains offset then some (t.nodeAt offset) else nodeAtAny offset ts

end

namespace SyntaxTree

/-- The nodes in the order of the walk. -/
def nodes (tree : SyntaxTree) : List NodeInfo := tree.root.labels

def size (tree : SyntaxTree) : Nat := tree.root.size

/-- The innermost node at an offset. -/
def nodeAt (tree : SyntaxTree) (offset : Nat) : NodeInfo := tree.root.nodeAt offset

def hasErrors (tree : SyntaxTree) : Bool := tree.nodes.any NodeInfo.error

/-- The texts of the childless nodes, in order. -/
def leafTexts (tree : SyntaxTree) : List (List Char) :=
  tree.root.leaves.map (NodeInfo.text · tree.source)

end SyntaxTree

namespace Cursor

def kind (c : Cursor NodeInfo) : String := c.label.kind

def isTrivia (c : Cursor NodeInfo) : Bool := c.label.isTrivia

/-- The siblings before a node that are neither white space nor comments, nearest first. -/
def significantBefore (c : Cursor NodeInfo) : List (Cursor NodeInfo) :=
  c.before.filter (!·.isTrivia)

/-- The siblings after a node that are neither white space nor comments, nearest first. -/
def significantAfter (c : Cursor NodeInfo) : List (Cursor NodeInfo) :=
  c.after.filter (!·.isTrivia)

def prevSignificant? (c : Cursor NodeInfo) : Option (Cursor NodeInfo) := c.significantBefore.head?

def nextSignificant? (c : Cursor NodeInfo) : Option (Cursor NodeInfo) := c.significantAfter.head?

/-- The first child that fills a field. -/
def childByField? (c : Cursor NodeInfo) (field : String) : Option (Cursor NodeInfo) :=
  c.children.find? (·.label.field == some field)

end Cursor

end SourceEditor

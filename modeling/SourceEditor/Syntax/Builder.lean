import SourceEditor.Syntax.Node
import SourceEditor.Unicode.WhiteSpace

/-!
# Building a syntax tree

A `Builder` is a syntax tree in the making: the innermost open node with the children it has so far,
and the open nodes around it. Nodes are numbered in the order in which they are added, which is the
order of the walk over the finished tree.

* `Builder.enter` adds a node that collects all that follows until the matching `Builder.leave`.
* `Builder.leaf` and `Builder.gap` add childless nodes.
* `Builder.finish` closes whatever is still open.
-/

namespace SourceEditor

/-- What a node is, apart from the source it covers. -/
structure NodeShape where
  kind : String
  field : Option String := none
  named : Bool := false
  error : Bool := false
  deriving DecidableEq, Repr

/-- The node of a shape with a number and ranges. -/
def NodeShape.toInfo (s : NodeShape) (id : Nat) (range bytes : Span) : NodeInfo :=
  { id, kind := s.kind, field := s.field, named := s.named, error := s.error, range, bytes }

/-- An open node, with the children it has so far, last first. -/
structure Frame where
  info : NodeInfo
  children : List (Tree NodeInfo)
  deriving Repr

namespace Frame

/-- Adds a child after the ones there are. -/
def push (f : Frame) (t : Tree NodeInfo) : Frame := { f with children := t :: f.children }

/-- The finished node, which ends at the given offsets. -/
def close (f : Frame) (stop stopByte : Nat) : Tree NodeInfo :=
  .node { f.info with
    range := { f.info.range with stop }, bytes := { f.info.bytes with stop := stopByte } }
    f.children.reverse

end Frame

/-- A syntax tree in the making. -/
structure Builder where
  source : List Char
  /-- How many nodes there are. -/
  count : Nat
  /-- The innermost open node. -/
  inner : Frame
  /-- The other open nodes, innermost first. -/
  outer : List Frame
  deriving Repr

namespace Builder

/-- A tree of which the root is open and starts at the start of the source. -/
def start (source : List Char) (root : NodeShape) : Builder where
  source := source
  count := 1
  inner := { info := root.toInfo 0 ⟨0, 0⟩ ⟨0, 0⟩, children := [] }
  outer := []

/-- Opens a node at the given offsets. -/
def enter (b : Builder) (shape : NodeShape) (start startByte : Nat) : Builder :=
  { b with
    count := b.count + 1
    inner :=
      { info := shape.toInfo b.count ⟨start, start⟩ ⟨startByte, startByte⟩, children := [] }
    outer := b.inner :: b.outer }

/-- Adds a childless node. -/
def leaf (b : Builder) (shape : NodeShape) (range bytes : Span) : Builder :=
  { b with
    count := b.count + 1
    inner := b.inner.push (.node (shape.toInfo b.count range bytes) []) }

/-- Adds a leaf for source that no node covers. -/
def gap (b : Builder) (range bytes : Span) : Builder :=
  let isBlank := (range.slice b.source).all Unicode.isWhiteSpace
  b.leaf { kind := if isBlank then whitespaceKind else textKind } range bytes

/-- Marks the innermost open node as an error. -/
def markError (b : Builder) : Builder :=
  { b with inner := { b.inner with info := { b.inner.info with error := true } } }

/-- Closes the innermost open node at the given offsets. The root stays open. -/
def leave (b : Builder) (stop stopByte : Nat) : Builder :=
  match b.outer with
  | [] => b
  | frame :: outer => { b with inner := frame.push (b.inner.close stop stopByte), outer }

/-- Closes every open node at the given offsets. -/
def closeAll (stop stopByte : Nat) : Frame → List Frame → Tree NodeInfo
  | inner, [] => inner.close stop stopByte
  | inner, frame :: outer => closeAll stop stopByte (frame.push (inner.close stop stopByte)) outer

/-- The finished tree: every node still open is closed at the end of the source. -/
def finish (b : Builder) (stop stopByte : Nat) : SyntaxTree :=
  { source := b.source, root := closeAll stop stopByte b.inner b.outer }

end Builder

end SourceEditor

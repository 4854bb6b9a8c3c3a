import SourceEditor.Syntax.Builder
import SourceEditor.Text.Offset

/-!
# Syntax trees from an external parser

A `RawTree` is what an external parser says about a source: nodes with byte ranges, which need not
cover the whole source. `RawTree.toSyntaxTree` turns it into a lossless syntax tree by adding a leaf
wherever source lies between the children of a node, before the first or after the last.
-/

namespace SourceEditor

/-- What an external parser says about a node. -/
structure RawInfo where
  kind : String
  field : Option String
  named : Bool
  /-- Whether the node holds source that the parser could not place. -/
  isError : Bool
  /-- Whether the node was made up because the grammar needs it here. -/
  isMissing : Bool
  bytes : Span
  deriving DecidableEq, Repr

/-- The tree of an external parser. -/
abbrev RawTree := Tree RawInfo

namespace RawTree

/-- The shape of a node other than the root. -/
def shape (n : RawInfo) : NodeShape where
  kind := n.kind
  field := n.field
  named := n.named
  error := n.isError || n.isMissing

/-- Adds a leaf for the bytes from `start` to `stop`, if there are any. -/
def addGap (index : ByteIndex) (start stop : Nat) (b : Builder) : Builder :=
  if start < stop then b.gap ⟨index.get start, index.get stop⟩ ⟨start, stop⟩ else b

mutual

/-- Adds a node with all that is below it. -/
def addNode (index : ByteIndex) : RawTree → Builder → Builder
  | .node n [], b => b.leaf (shape n) ⟨index.get n.bytes.start, index.get n.bytes.stop⟩ n.bytes
  | .node n (t :: ts), b =>
    let entered := b.enter (shape n) (index.get n.bytes.start) n.bytes.start
    let filled := addChildren index n.bytes.start n.bytes.stop (t :: ts) entered
    filled.leave (index.get n.bytes.stop) n.bytes.stop

/-- Adds the children of a node that ends at `stop`, of which the bytes before `done` are covered,
with leaves for what no child covers. -/
def addChildren (index : ByteIndex) (done stop : Nat) : List RawTree → Builder → Builder
  | [], b => addGap index done stop b
  | t :: ts, b =>
    let bytes := t.label.bytes
    addChildren index (max done bytes.stop) stop ts
      (addNode index t (addGap index done bytes.start b))

end

/-- The lossless syntax tree of a source. The root covers the whole source whatever the external
parser says about it, and is an error only if it is one as a whole. -/
def toSyntaxTree (source : List Char) (raw : RawTree) : SyntaxTree :=
  let index := ByteIndex.ofText source
  let size := byteLength source
  let root := { kind := raw.label.kind, named := true, error := raw.label.isError }
  (addChildren index 0 size raw.children (Builder.start source root)).finish (index.get size) size

end RawTree

end SourceEditor

import SourceEditor.Proofs.Syntax.Tree
import SourceEditor.Proofs.Text.Offset
import Mathlib.Data.List.Chain

/-!
# Lossless trees

A syntax tree is lossless if nothing of the source is missing from its leaves.
`Lossless source i ts k` says so of trees that stand side by side: together they cover the source
from the offset `i` to the offset `k`, and so do the children of each node for the part that the
node covers.

What one wants to know of a lossless tree follows by induction on this relation:

* its leaves spell the source (`Lossless.flatten_leaves`);
* the two ranges of every node are one part of the source (`Lossless.located`);
* the children of every node fill it (`Lossless.filled`).
-/

namespace SourceEditor

variable {source : List Char}

/-! ## Nodes in a source -/

namespace NodeInfo

/-- The two ranges of a node are one part of the source, counted in characters and in bytes. -/
structure Located (source : List Char) (n : NodeInfo) : Prop where
  start_le_stop : n.range.start ≤ n.range.stop
  stop_le_length : n.range.stop ≤ source.length
  start_byte : n.bytes.start = byteLength (source.take n.range.start)
  stop_byte : n.bytes.stop = byteLength (source.take n.range.stop)

/-- The bytes of a node are those of its text. -/
theorem Located.slice_bytes {n : NodeInfo} (h : n.Located source) :
    n.bytes.slice (utf8 source) = utf8 (n.text source) := by
  have hbytes : n.bytes =
      ⟨byteLength (source.take n.range.start), byteLength (source.take n.range.stop)⟩ := by
    rw [← h.start_byte, ← h.stop_byte]
  rw [hbytes, slice_utf8 h.start_le_stop, text]

end NodeInfo

/-- The children of a node lie end to end, from where it starts to where it stops. A childless node
is filled by itself. -/
structure Tree.Filled (t : Tree NodeInfo) : Prop where
  first : ∀ c ∈ t.children.head?, c.label.range.start = t.label.range.start
  adjacent : t.children.IsChain fun c d => c.label.range.stop = d.label.range.start
  last : ∀ c ∈ t.children.getLast?, c.label.range.stop = t.label.range.stop

/-! ## Trees side by side -/

/-- Side by side, the trees cover the source from one offset to another, and so do the children of
every node that has any. -/
inductive Lossless (source : List Char) : Nat → List (Tree NodeInfo) → Nat → Prop
  | nil (i : Nat) : Lossless source i [] i
  | leaf {i k : Nat} {n : NodeInfo} {ts : List (Tree NodeInfo)} (located : n.Located source)
      (start : n.range.start = i) (tail : Lossless source n.range.stop ts k) :
      Lossless source i (.node n [] :: ts) k
  | node {i k : Nat} {n : NodeInfo} {children ts : List (Tree NodeInfo)}
      (located : n.Located source) (start : n.range.start = i) (nonempty : children ≠ [])
      (below : Lossless source i children n.range.stop) (tail : Lossless source n.range.stop ts k) :
      Lossless source i (.node n children :: ts) k

namespace Lossless

variable {i k : Nat} {ts : List (Tree NodeInfo)}

theorem le (h : Lossless source i ts k) : i ≤ k := by
  induction h with
  | nil i => exact Nat.le_refl i
  | leaf located start _ ih => exact Nat.le_trans (start ▸ located.start_le_stop) ih
  | node located start _ _ _ _ ih => exact Nat.le_trans (start ▸ located.start_le_stop) ih

/-- A node over trees that cover its part of the source. -/
theorem wrap {n : NodeInfo} (located : n.Located source) (range : n.range = ⟨i, k⟩)
    (below : Lossless source i ts k) : Lossless source i [.node n ts] k := by
  have hstart : n.range.start = i := by rw [range]
  have hstop : n.range.stop = k := by rw [range]
  by_cases hnil : ts = []
  · rw [hnil]
    exact .leaf located hstart (hstop ▸ .nil _)
  · exact .node located hstart hnil (hstop ▸ below) (hstop ▸ .nil _)

/-- The leaves spell what the trees cover. -/
theorem flatten_leaves (h : Lossless source i ts k) :
    ((ts.flatMap Tree.leaves).map (NodeInfo.text · source)).flatten = Span.slice ⟨i, k⟩ source := by
  induction h with
  | nil i => rw [Span.slice_self]; rfl
  | @leaf i k n ts located start tail ih =>
    have htext : n.text source = Span.slice ⟨i, n.range.stop⟩ source := by
      rw [NodeInfo.text, ← start]
    rw [List.flatMap_cons, Tree.leaves_node_nil, List.singleton_append, List.map_cons,
      List.flatten_cons, ih, htext,
      Span.slice_append_slice (start ▸ located.start_le_stop) tail.le]
  | @node i k n children ts located start nonempty below tail ihBelow ih =>
    rw [List.flatMap_cons, Tree.leaves_node_of_ne_nil n nonempty, List.map_append,
      List.flatten_append, ihBelow, ih, Span.slice_append_slice below.le tail.le]

/-- Every node is located. -/
theorem located (h : Lossless source i ts k) :
    ∀ t ∈ ts.flatMap Tree.subtrees, t.label.Located source := by
  induction h with
  | nil => simp
  | leaf located _ _ ih => exact Tree.forall_subtrees_cons.mpr ⟨located, by simp, ih⟩
  | node located _ _ _ _ ihBelow ih =>
    exact Tree.forall_subtrees_cons.mpr ⟨located, ihBelow, ih⟩

/-- None of the trees starts before the first. -/
theorem le_start (h : Lossless source i ts k) : ∀ t ∈ ts, i ≤ t.label.range.start := by
  induction h with
  | nil => simp
  | leaf located start _ ih =>
    refine List.forall_mem_cons.mpr ⟨start.ge, fun t ht => ?_⟩
    exact (start ▸ located.start_le_stop).trans (ih t ht)
  | node located start _ _ _ _ ih =>
    refine List.forall_mem_cons.mpr ⟨start.ge, fun t ht => ?_⟩
    exact (start ▸ located.start_le_stop).trans (ih t ht)

/-- No child starts before its node. -/
theorem children_start (h : Lossless source i ts k) :
    ∀ t ∈ ts.flatMap Tree.subtrees, ∀ u ∈ t.children,
      t.label.range.start ≤ u.label.range.start := by
  induction h with
  | nil => simp
  | leaf _ _ _ ih => exact Tree.forall_subtrees_cons.mpr ⟨by simp [Tree.children], by simp, ih⟩
  | node _ start _ below _ ihBelow ih =>
    exact Tree.forall_subtrees_cons.mpr ⟨start ▸ below.le_start, ihBelow, ih⟩

theorem start_of_head? (h : Lossless source i ts k) :
    ∀ t ∈ ts.head?, t.label.range.start = i := by
  cases h with
  | nil => simp
  | leaf _ start => simpa [Tree.label] using start
  | node _ start => simpa [Tree.label] using start

theorem stop_of_getLast? (h : Lossless source i ts k) :
    ∀ t ∈ ts.getLast?, t.label.range.stop = k := by
  have hcons {n : NodeInfo} {children ts : List (Tree NodeInfo)} {k : Nat}
      (tail : Lossless source n.range.stop ts k)
      (ih : ∀ t ∈ ts.getLast?, t.label.range.stop = k) :
      ∀ t ∈ (Tree.node n children :: ts).getLast?, t.label.range.stop = k := by
    intro t ht
    cases ts with
    | nil =>
      obtain rfl : Tree.node n children = t := by simpa using ht
      cases tail
      rfl
    | cons u us => exact ih t (by rwa [List.getLast?_cons_cons] at ht)
  induction h with
  | nil => simp
  | leaf _ _ tail ih => exact hcons tail ih
  | node _ _ _ _ tail _ ih => exact hcons tail ih

theorem isChain (h : Lossless source i ts k) :
    ts.IsChain fun c d => c.label.range.stop = d.label.range.start := by
  induction h with
  | nil => exact .nil
  | leaf _ _ tail ih =>
    exact List.isChain_cons.mpr ⟨fun d hd => (tail.start_of_head? d hd).symm, ih⟩
  | node _ _ _ _ tail _ ih =>
    exact List.isChain_cons.mpr ⟨fun d hd => (tail.start_of_head? d hd).symm, ih⟩

/-- The children of every node fill it. -/
theorem filled (h : Lossless source i ts k) : ∀ t ∈ ts.flatMap Tree.subtrees, t.Filled := by
  induction h with
  | nil => simp
  | leaf _ _ _ ih =>
    refine Tree.forall_subtrees_cons.mpr ⟨?_, by simp, ih⟩
    exact ⟨by simp [Tree.children], .nil, by simp [Tree.children]⟩
  | node _ start _ below _ ihBelow ih =>
    refine Tree.forall_subtrees_cons.mpr ⟨?_, ihBelow, ih⟩
    exact ⟨fun c hc => (below.start_of_head? c hc).trans start.symm, below.isChain,
      below.stop_of_getLast?⟩

end Lossless

end SourceEditor

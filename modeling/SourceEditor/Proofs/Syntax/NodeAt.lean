import SourceEditor.Proofs.Syntax.RawTree
import SourceEditor.Proofs.Syntax.TokenTree

/-!
# The node at an offset

The search for the innermost node at an offset goes, at each level, to the first child that covers
it. In a lossless tree that is the way to a leaf: the children of a node lie end to end, so that one
of them covers the offset and no leaf of the others does.

`Lossless.leafAt` and `Lossless.nodeAtAny_eq_none` say so of trees side by side, and
`nodeAt_finds_leaf` of the trees of both parsers.
-/

namespace SourceEditor

/-- The childless nodes that cover an offset. -/
def Tree.leavesAt (offset : Nat) (t : Tree NodeInfo) : List NodeInfo :=
  t.leaves.filter (·.range.contains offset)

theorem Span.contains_iff {s : Span} {offset : Nat} :
    s.contains offset = true ↔ s.start ≤ offset ∧ offset < s.stop := by
  rw [contains, Bool.and_eq_true, decide_eq_true_eq, decide_eq_true_eq]

namespace Tree

variable {offset : Nat} {n : NodeInfo} {ts : List (Tree NodeInfo)}

theorem nodeAt_node (offset : Nat) (n : NodeInfo) (ts : List (Tree NodeInfo)) :
    (node n ts).nodeAt offset = (nodeAtAny offset ts).getD n := by
  rw [nodeAt]

theorem leavesAt_node_nil (offset : Nat) (n : NodeInfo) :
    (node n []).leavesAt offset = if n.range.contains offset then [n] else [] := by
  rw [leavesAt, leaves_node_nil, List.filter_singleton, Bool.cond_eq_ite]

theorem leavesAt_node_of_ne_nil (n : NodeInfo) (h : ts ≠ []) :
    (node n ts).leavesAt offset = ts.flatMap (leavesAt offset) := by
  rw [leavesAt, leaves_node_of_ne_nil n h, List.filter_flatMap]
  rfl

end Tree

namespace Lossless

variable {source : List Char} {i k offset : Nat} {ts : List (Tree NodeInfo)}

/-- Trees that do not reach an offset have no leaf there. -/
theorem flatMap_leavesAt_eq_nil (h : Lossless source i ts k) (hout : offset < i ∨ k ≤ offset) :
    ts.flatMap (Tree.leavesAt offset) = [] := by
  induction h with
  | nil => rfl
  | leaf located start tail ih =>
    have := located.start_le_stop
    have := tail.le
    rw [List.flatMap_cons, Tree.leavesAt_node_nil, ih (by omega), List.append_nil, if_neg]
    rw [Span.contains_iff]
    omega
  | node located start nonempty below tail ihBelow ih =>
    have := located.start_le_stop
    have := tail.le
    rw [List.flatMap_cons, Tree.leavesAt_node_of_ne_nil _ nonempty, ihBelow (by omega),
      ih (by omega), List.append_nil]

/-- Trees that do not reach an offset are not searched. -/
theorem nodeAtAny_eq_none (h : Lossless source i ts k) (hout : offset < i ∨ k ≤ offset) :
    Tree.nodeAtAny offset ts = none := by
  have hcons {n : NodeInfo} {children ts : List (Tree NodeInfo)}
      (hn : ¬ (n.range.start ≤ offset ∧ offset < n.range.stop))
      (hts : Tree.nodeAtAny offset ts = none) :
      Tree.nodeAtAny offset (.node n children :: ts) = none := by
    rw [Tree.nodeAtAny, if_neg (by rwa [Tree.label, Span.contains_iff]), hts]
  induction h with
  | nil => rw [Tree.nodeAtAny]
  | leaf located start tail ih =>
    have := located.start_le_stop
    have := tail.le
    exact hcons (by omega) (ih (by omega))
  | node located start nonempty below tail ihBelow ih =>
    have := located.start_le_stop
    have := tail.le
    exact hcons (by omega) (ih (by omega))

/-- **Trees that reach over an offset** have one leaf there, and the search finds it. -/
theorem leafAt (h : Lossless source i ts k) (hstart : i ≤ offset) (hstop : offset < k) :
    ∃ n, Tree.nodeAtAny offset ts = some n ∧ ts.flatMap (Tree.leavesAt offset) = [n] := by
  induction h with
  | nil => omega
  | @leaf i k n ts located start tail ih =>
    rw [Tree.nodeAtAny, List.flatMap_cons, Tree.leavesAt_node_nil, Tree.label]
    by_cases hhere : n.range.contains offset = true
    · have hafter := tail.flatMap_leavesAt_eq_nil (Or.inl (Span.contains_iff.mp hhere).2)
      refine ⟨n, ?_, ?_⟩
      · rw [if_pos hhere, Tree.nodeAt_node, Tree.nodeAtAny]
        rfl
      · rw [if_pos hhere, hafter]
        rfl
    · rw [if_neg hhere, if_neg hhere, List.nil_append]
      rw [Span.contains_iff] at hhere
      exact ih (by omega) hstop
  | @node i k n children ts located start nonempty below tail ihBelow ih =>
    rw [Tree.nodeAtAny, List.flatMap_cons, Tree.leavesAt_node_of_ne_nil n nonempty, Tree.label]
    by_cases hhere : n.range.contains offset = true
    · have hcontains := Span.contains_iff.mp hhere
      have hafter := tail.flatMap_leavesAt_eq_nil (Or.inl hcontains.2)
      obtain ⟨m, hfound, honly⟩ := ihBelow hstart hcontains.2
      refine ⟨m, ?_, ?_⟩
      · rw [if_pos hhere, Tree.nodeAt_node, hfound]
        rfl
      · rw [honly, hafter]
        rfl
    · rw [if_neg hhere]
      rw [Span.contains_iff] at hhere
      rw [below.flatMap_leavesAt_eq_nil (Or.inr (by omega)), List.nil_append]
      exact ih (by omega) hstop

end Lossless

namespace SyntaxTree

/-- The search for a node at an offset ends at a leaf, which is the only one there; past the end of
the source it stays at the root. -/
structure FindsLeaves (source : List Char) (tree : SyntaxTree) : Prop where
  inside : ∀ offset < source.length, tree.root.leavesAt offset = [tree.nodeAt offset]
  outside : ∀ offset ≥ source.length, tree.nodeAt offset = tree.root.label

variable {source : List Char} {tree : SyntaxTree}

/-- A root over the whole source, whose children cover it. -/
theorem findsLeaves_of_lossless (located : tree.root.label.Located source)
    (range : tree.root.label.range = ⟨0, source.length⟩)
    (below : Lossless source 0 tree.root.children source.length) : FindsLeaves source tree := by
  obtain ⟨text, n, ts⟩ := tree
  have hroot : Lossless source 0 [.node n ts] source.length := .wrap located range below
  refine ⟨fun offset hoffset => ?_, fun offset hoffset => ?_⟩
  · have hcontains : (Tree.node n ts).label.range.contains offset = true := by
      rw [range, Span.contains_iff]
      exact ⟨Nat.zero_le offset, hoffset⟩
    obtain ⟨m, hfound, honly⟩ := hroot.leafAt (Nat.zero_le offset) hoffset
    rw [Tree.nodeAtAny, if_pos hcontains, Option.some.injEq] at hfound
    rw [nodeAt, hfound, ← honly, List.flatMap_singleton]
  · have hnone : Tree.nodeAtAny offset ts = none := below.nodeAtAny_eq_none (Or.inr hoffset)
    rw [nodeAt, Tree.nodeAt_node, hnone]
    rfl

/-- **The node at an offset** of a parsed source is the leaf there. -/
theorem nodeAt_finds_leaf (source : List Char) :
    FindsLeaves source (TokenTree.parse source) ∧
      ∀ raw, RawTree.WellFormed source raw →
        FindsLeaves source (RawTree.toSyntaxTree source raw) := by
  constructor
  · have hroot := TokenTree.isRoot_parse source
    exact findsLeaves_of_lossless hroot.located hroot.range_eq hroot.grouped.lossless
  · intro raw h
    obtain ⟨n, ts, heq, hrange, houtline, hconverts⟩ := RawTree.exists_toSyntaxTree h
    have hbytes : n.bytes = ⟨0, byteLength source⟩ := congrArg Outline.bytes houtline
    have hlocated : n.Located source := by
      constructor <;> simp [hrange, hbytes, byteLength]
    rw [heq]
    exact findsLeaves_of_lossless hlocated hrange hconverts.lossless

theorem nodeAt_finds_leaf_missing_node :
    RawTree.WellFormed ['é', ' ', 'x', ';'] RawTree.exampleTree ∧
      FindsLeaves ['é', ' ', 'x', ';']
        (RawTree.toSyntaxTree ['é', ' ', 'x', ';'] RawTree.exampleTree) := by
  have h : RawTree.WellFormed ['é', ' ', 'x', ';'] RawTree.exampleTree :=
    ⟨by decide, by decide, by decide⟩
  exact ⟨h, (nodeAt_finds_leaf _).2 _ h⟩

end SyntaxTree

end SourceEditor

import SourceEditor.Syntax.Tree
import Mathlib.Data.List.Basic

/-!
# Trees and what is below them

The walks over a tree are defined by recursion on a node and on a list of siblings at once. Here
they get their equations in terms of `List.flatMap` and `List.map`, and trees an induction in which
the claim may be used for all children of a node (`Tree.childInduction`).

`Tree.subtrees` is the walk that keeps what is below each node. A statement about every node of a
tree together with its children is one about `Tree.subtrees`.
-/

namespace SourceEditor.Tree

variable {α β : Type}

/-- Induction from the children of a node to the node. -/
@[elab_as_elim]
theorem childInduction {motive : Tree α → Prop}
    (node : ∀ a ts, (∀ t ∈ ts, motive t) → motive (.node a ts)) : ∀ t, motive t
  | .node a ts => node a ts fun t _ => childInduction node t

theorem labelsAll_eq (ts : List (Tree α)) : labelsAll ts = ts.flatMap labels := by
  induction ts with
  | nil => rfl
  | cons t ts ih => rw [labelsAll, ih, List.flatMap_cons]

theorem leavesAll_eq (ts : List (Tree α)) : leavesAll ts = ts.flatMap leaves := by
  induction ts with
  | nil => rfl
  | cons t ts ih => rw [leavesAll, ih, List.flatMap_cons]

theorem mapAll_eq (f : α → β) (ts : List (Tree α)) : mapAll f ts = ts.map (map f) := by
  induction ts with
  | nil => rfl
  | cons t ts ih => rw [mapAll, ih, List.map_cons]

@[simp]
theorem labels_node (a : α) (ts : List (Tree α)) : (node a ts).labels = a :: ts.flatMap labels := by
  rw [labels, labelsAll_eq]

@[simp]
theorem leaves_node_nil (a : α) : (node a []).leaves = [a] := by
  rw [leaves]

theorem leaves_node_of_ne_nil (a : α) {ts : List (Tree α)} (h : ts ≠ []) :
    (node a ts).leaves = ts.flatMap leaves := by
  cases ts with
  | nil => exact absurd rfl h
  | cons t ts => rw [leaves, leavesAll_eq, List.flatMap_cons]

@[simp]
theorem map_node (f : α → β) (a : α) (ts : List (Tree α)) :
    (node a ts).map f = node (f a) (ts.map (map f)) := by
  rw [map, mapAll_eq]

mutual

/-- The nodes with all that is below them, parents before children and children in order. -/
def subtrees : Tree α → List (Tree α)
  | node a ts => node a ts :: subtreesAll ts

/-- The nodes of several trees with all that is below them, one tree after the other. -/
def subtreesAll : List (Tree α) → List (Tree α)
  | [] => []
  | t :: ts => subtrees t ++ subtreesAll ts

end

theorem subtreesAll_eq (ts : List (Tree α)) : subtreesAll ts = ts.flatMap subtrees := by
  induction ts with
  | nil => rfl
  | cons t ts ih => rw [subtreesAll, ih, List.flatMap_cons]

@[simp]
theorem subtrees_node (a : α) (ts : List (Tree α)) :
    (node a ts).subtrees = node a ts :: ts.flatMap subtrees := by
  rw [subtrees, subtreesAll_eq]

theorem mem_subtrees_self (t : Tree α) : t ∈ t.subtrees := by
  cases t with
  | node a ts => simp

/-- The children of a node of a tree are nodes of the tree. -/
theorem mem_subtrees_of_mem_children {t u v : Tree α} (hu : u ∈ t.subtrees) (hv : v ∈ u.children) :
    v ∈ t.subtrees := by
  induction t using childInduction with
  | node a ts ih =>
    rw [subtrees_node, List.mem_cons] at hu ⊢
    right
    rcases hu with rfl | hu
    · exact List.mem_flatMap.mpr ⟨v, hv, v.mem_subtrees_self⟩
    · obtain ⟨t, ht, hu⟩ := List.mem_flatMap.mp hu
      exact List.mem_flatMap.mpr ⟨t, ht, ih t ht hu⟩

/-- What holds of all nodes of a tree and of the trees after it. -/
theorem forall_subtrees_cons {p : Tree α → Prop} {a : α} {children ts : List (Tree α)} :
    (∀ t ∈ (node a children :: ts).flatMap subtrees, p t) ↔
      p (node a children) ∧ (∀ t ∈ children.flatMap subtrees, p t) ∧
        ∀ t ∈ ts.flatMap subtrees, p t := by
  rw [List.flatMap_cons, subtrees_node, List.cons_append, List.forall_mem_cons,
    List.forall_mem_append]

/-- The walk over what is below a node is part of the walk over the tree. -/
theorem labels_sublist {t u : Tree α} (hu : u ∈ t.subtrees) : u.labels.Sublist t.labels := by
  induction t using childInduction with
  | node a ts ih =>
    rw [subtrees_node] at hu
    rcases List.mem_cons.mp hu with rfl | hu
    · exact List.Sublist.refl _
    · obtain ⟨t, ht, hu⟩ := List.mem_flatMap.mp hu
      rw [labels_node]
      exact ((ih t ht hu).trans (List.sublist_flatten_of_mem (List.mem_map_of_mem ht))).cons _

/-- Among the nodes below several trees, their roots come in order. -/
theorem map_label_sublist (ts : List (Tree α)) :
    (ts.map label).Sublist (ts.flatMap labels) := by
  induction ts with
  | nil => exact List.Sublist.refl _
  | cons t ts ih =>
    cases t with
    | node a us =>
      rw [List.flatMap_cons, labels_node, List.map_cons, List.cons_append]
      exact (ih.trans (List.sublist_append_right _ _)).cons_cons _

mutual

/-- The tree without the nodes below the root whose label is one to drop, and what is below them. -/
def prune (drop : α → Bool) : Tree α → Tree α
  | node a ts => node a (pruneAll drop ts)

/-- The trees without those whose label is one to drop, each of them pruned. -/
def pruneAll (drop : α → Bool) : List (Tree α) → List (Tree α)
  | [] => []
  | t :: ts => if drop t.label then pruneAll drop ts else prune drop t :: pruneAll drop ts

end

end SourceEditor.Tree

import SourceEditor.Proofs.Syntax.Tree

/-!
# Cursors in a tree

A cursor of a tree stands on a node and among its siblings. `Cursor.family` is the node together
with its siblings, in order, and does not change when the cursor goes to a sibling
(`Cursor.family_of_mem_after`). The families that the walk over a tree meets are the children of the
nodes of the tree (`Tree.family_of_mem_cursors`), so that what is known about the children of every
node is known about the surroundings of every cursor.
-/

namespace SourceEditor

variable {α : Type}

namespace Cursor

/-- A node with its siblings, in order. -/
def family : Cursor α → List (Tree α)
  | root t => [t]
  | child _ before t after => before.reverse ++ t :: after

/-! ## Siblings and children -/

theorem map_tree_walkAfter (p : Cursor α) (before : List (Tree α)) (here : Tree α)
    (after : List (Tree α)) : (walkAfter p before here after).map tree = after := by
  induction after generalizing before here with
  | nil => rfl
  | cons t after ih =>
    rw [walkAfter, List.map_cons, ih]
    rfl

/-- A family is what stands before a node, the node, and the siblings after it. -/
theorem exists_family_eq (c : Cursor α) :
    ∃ front, c.family = front ++ c.tree :: c.after.map tree := by
  cases c with
  | root t => exact ⟨[], rfl⟩
  | child p before t after =>
    refine ⟨before.reverse, ?_⟩
    rw [Cursor.after, map_tree_walkAfter]
    rfl

theorem family_of_mem_walkAfter {p d : Cursor α} {before : List (Tree α)} {here : Tree α}
    {after : List (Tree α)} (h : d ∈ walkAfter p before here after) :
    d.family = before.reverse ++ here :: after := by
  induction after generalizing before here with
  | nil => cases h
  | cons t after ih =>
    rw [List.append_cons, ← List.reverse_cons]
    rcases List.mem_cons.mp h with rfl | h
    · rfl
    · exact ih h

/-- Siblings have the same family. -/
theorem family_of_mem_after {c d : Cursor α} (h : d ∈ c.after) : d.family = c.family := by
  cases c with
  | root t => cases h
  | child p before t after => exact family_of_mem_walkAfter h

theorem map_tree_children (c : Cursor α) : c.children.map tree = c.tree.children := by
  unfold children
  split
  · next hnil => rw [hnil, List.map_nil]
  · next t ts hcons =>
    rw [hcons, List.map_cons, map_tree_walkAfter]
    rfl

/-- The cursors at the children `ts` of a node, of which those in `before` are done. -/
def childrenFrom (p : Cursor α) (before : List (Tree α)) : List (Tree α) → List (Cursor α)
  | [] => []
  | t :: ts => child p before t ts :: childrenFrom p (t :: before) ts

theorem walkAfter_eq_childrenFrom (p : Cursor α) (before : List (Tree α)) (here : Tree α)
    (after : List (Tree α)) :
    walkAfter p before here after = childrenFrom p (here :: before) after := by
  induction after generalizing before here with
  | nil => rfl
  | cons t after ih => rw [walkAfter, childrenFrom, ih]

theorem children_eq_childrenFrom (c : Cursor α) :
    c.children = childrenFrom c [] c.tree.children := by
  unfold children
  split
  · next hnil => rw [hnil, childrenFrom]
  · next t ts hcons => rw [hcons, childrenFrom, walkAfter_eq_childrenFrom]

theorem parent?_of_mem_childrenFrom {p d : Cursor α} {before ts : List (Tree α)}
    (h : d ∈ childrenFrom p before ts) : d.parent? = some p := by
  induction ts generalizing before with
  | nil => cases h
  | cons t ts ih =>
    rcases List.mem_cons.mp h with rfl | h
    · rfl
    · exact ih h

theorem parent?_of_mem_children {p d : Cursor α} (h : d ∈ p.children) : d.parent? = some p := by
  rw [children_eq_childrenFrom] at h
  exact parent?_of_mem_childrenFrom h

theorem siblings_of_mem_childrenFrom {p d : Cursor α} {before : List (Tree α)} {t : Tree α}
    {ts : List (Tree α)} (h : d ∈ childrenFrom p before (t :: ts)) :
    d.before.reverse ++ d :: d.after =
      (walkBefore p before t ts).reverse ++ childrenFrom p before (t :: ts) := by
  induction ts generalizing before t with
  | nil =>
    obtain rfl := List.mem_singleton.mp h
    rfl
  | cons u ts ih =>
    rcases List.mem_cons.mp h with rfl | h
    · rw [childrenFrom, ← walkAfter_eq_childrenFrom]
      rfl
    · -- The step to the next sibling puts this one last among those before.
      rw [ih h, walkBefore, List.reverse_cons, List.append_assoc, List.singleton_append]
      rfl

/-- The children of a node, seen from one of them. -/
theorem children_eq_of_mem {p d : Cursor α} (h : d ∈ p.children) :
    p.children = d.before.reverse ++ d :: d.after := by
  rw [children_eq_childrenFrom] at h ⊢
  cases hts : p.tree.children with
  | nil =>
    rw [hts] at h
    cases h
  | cons t ts =>
    rw [hts] at h
    exact (siblings_of_mem_childrenFrom h).symm

/-! ## The walk -/

mutual

theorem map_tree_walk (c : Cursor α) (t : Tree α) (h : c.tree = t) :
    (c.walk t).map tree = t.subtrees := by
  match t with
  | .node a ts => rw [walk, List.map_cons, h, map_tree_walkChildren, Tree.subtrees]

theorem map_tree_walkChildren (p : Cursor α) (before ts : List (Tree α)) :
    (walkChildren p before ts).map tree = Tree.subtreesAll ts := by
  match ts with
  | [] => rfl
  | t :: ts =>
    rw [walkChildren, List.map_append, map_tree_walk (child p before t ts) t rfl,
      map_tree_walkChildren p (t :: before) ts, Tree.subtreesAll]

end

mutual

/-- Below the node where a walk starts, families are children of a node. -/
theorem family_of_mem_walk {c d : Cursor α} (t : Tree α) (h : d ∈ c.walk t) :
    d = c ∨ ∃ u ∈ t.subtrees, d.family = u.children := by
  match t with
  | .node a ts =>
    rcases List.mem_cons.mp h with rfl | h
    · exact Or.inl rfl
    · right
      rcases family_of_mem_walkChildren ts h with hhere | ⟨u, hu, hfamily⟩
      · exact ⟨_, Tree.mem_subtrees_self _, hhere⟩
      · refine ⟨u, ?_, hfamily⟩
        rw [Tree.subtrees_node]
        exact List.mem_cons_of_mem _ hu

theorem family_of_mem_walkChildren {p d : Cursor α} {before : List (Tree α)} (ts : List (Tree α))
    (h : d ∈ walkChildren p before ts) :
    d.family = before.reverse ++ ts ∨ ∃ u ∈ ts.flatMap Tree.subtrees, d.family = u.children := by
  match ts with
  | [] => cases h
  | t :: ts =>
    rw [List.flatMap_cons]
    rcases List.mem_append.mp h with h | h
    · rcases family_of_mem_walk t h with rfl | ⟨u, hu, hfamily⟩
      · exact Or.inl rfl
      · exact Or.inr ⟨u, List.mem_append_left _ hu, hfamily⟩
    · rcases family_of_mem_walkChildren ts h with hhere | ⟨u, hu, hfamily⟩
      · left
        rw [hhere, List.reverse_cons, List.append_assoc, List.singleton_append]
      · exact Or.inr ⟨u, List.mem_append_right _ hu, hfamily⟩

end

mutual

/-- Below the node where a walk starts, every node is a child of one that the walk meets. -/
theorem mem_children_of_mem_walk {c d : Cursor α} (t : Tree α) (hc : c.tree = t)
    (h : d ∈ c.walk t) : d = c ∨ ∃ p ∈ c.walk t, d ∈ p.children := by
  match t with
  | .node a ts =>
    rcases List.mem_cons.mp h with rfl | h
    · exact Or.inl rfl
    · right
      rcases mem_children_of_mem_walkChildren ts h with hhere | ⟨p, hp, hd⟩
      · refine ⟨c, List.mem_cons_self, ?_⟩
        rw [children_eq_childrenFrom, hc]
        exact hhere
      · exact ⟨p, List.mem_cons_of_mem _ hp, hd⟩

theorem mem_children_of_mem_walkChildren {p d : Cursor α} {before : List (Tree α)}
    (ts : List (Tree α)) (h : d ∈ walkChildren p before ts) :
    d ∈ childrenFrom p before ts ∨ ∃ q ∈ walkChildren p before ts, d ∈ q.children := by
  match ts with
  | [] => cases h
  | t :: ts =>
    rw [walkChildren, childrenFrom]
    rcases List.mem_append.mp h with h | h
    · rcases mem_children_of_mem_walk t rfl h with rfl | ⟨q, hq, hd⟩
      · exact Or.inl List.mem_cons_self
      · exact Or.inr ⟨q, List.mem_append_left _ hq, hd⟩
    · rcases mem_children_of_mem_walkChildren ts h with hhere | ⟨q, hq, hd⟩
      · exact Or.inl (List.mem_cons_of_mem _ hhere)
      · exact Or.inr ⟨q, List.mem_append_right _ hq, hd⟩

end

end Cursor

namespace Tree

/-- The walk over the cursors meets the subtrees in order. -/
theorem map_tree_cursors (t : Tree α) : t.cursors.map Cursor.tree = t.subtrees :=
  Cursor.map_tree_walk _ t rfl

/-- Every cursor of a tree but the root stands among the children of a node of the tree. -/
theorem family_of_mem_cursors {t : Tree α} {c : Cursor α} (h : c ∈ t.cursors) :
    c = .root t ∨ ∃ u ∈ t.subtrees, c.family = u.children :=
  Cursor.family_of_mem_walk t h

/-- Every cursor of a tree but the root is a child of another. -/
theorem mem_children_of_mem_cursors {t : Tree α} {c : Cursor α} (h : c ∈ t.cursors) :
    c = .root t ∨ ∃ p ∈ t.cursors, c ∈ p.children :=
  Cursor.mem_children_of_mem_walk t rfl h

end Tree

end SourceEditor

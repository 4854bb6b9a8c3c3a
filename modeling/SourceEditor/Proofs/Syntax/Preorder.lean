import SourceEditor.Proofs.Syntax.Cursor
import SourceEditor.Proofs.Syntax.NodeTable
import Mathlib.Data.List.Nodup

/-!
# The order of a table of nodes

A finished table says three times how the nodes lie in a tree: by the order of the rows, by the
parents and by the children that the rows name. Here these three agree.

* `NodeTable.Visits` is the walk that follows the children that rows name. From the first row it
  meets all rows in order, each once.
* `NodeTable.Linked` says that a row names its parent if and only if the parent names it, and that
  children come after their parent and in order. It holds of the rows of every tree whose nodes are
  numbered in the order of the walk (`Tree.linked_rows`).
* `NodeTable.Describes` says that one goes about in a table as with the cursors of a tree.

That nodes are numbered in the order of the walk is what any calls that make a table leave behind,
so that all of this holds of whatever they make (`Builder.preorder_of_calls`).
-/

namespace SourceEditor

namespace NodeTable

/-! ## Going about in a table -/

section

variable (rows : List NodeRow) (id : Nat)

def parentOf? : Option Nat := rows[id]?.bind NodeRow.parent

def childrenOf : List Nat := (rows[id]?.map NodeRow.children).getD []

/-- The child of the same parent at the place to which one moves from the place of a node. -/
def siblingOf? (move : Nat → Option Nat) : Option Nat := do
  let parent ← parentOf? rows id
  let place ← (childrenOf rows parent).idxOf? id
  let target ← move place
  (childrenOf rows parent)[target]?

def nextSiblingOf? : Option Nat := siblingOf? rows id fun place => some (place + 1)

def prevSiblingOf? : Option Nat :=
  siblingOf? rows id fun place => if place = 0 then none else some (place - 1)

end

/-- The walk from several nodes, one after the other and each before its children, meets the nodes
`ids` in this order. -/
inductive Visits (rows : List NodeRow) : (starts ids : List Nat) → Prop
  | nil : Visits rows [] []
  | cons {id : Nat} {row : NodeRow} {starts below ids : List Nat} (hrow : rows[id]? = some row)
      (hbelow : Visits rows row.children below) (hrest : Visits rows starts ids) :
      Visits rows (id :: starts) (id :: (below ++ ids))

namespace Visits

variable {rows : List NodeRow} {starts starts' ids ids' : List Nat}

theorem append (h : Visits rows starts ids) (h' : Visits rows starts' ids') :
    Visits rows (starts ++ starts') (ids ++ ids') := by
  induction h with
  | nil => exact h'
  | cons hrow hbelow _ _ ih =>
    rw [List.cons_append, List.cons_append, List.append_assoc]
    exact .cons hrow hbelow ih

/-- There is one walk at most. -/
theorem unique (h : Visits rows starts ids) (h' : Visits rows starts ids') : ids = ids' := by
  induction h generalizing ids' with
  | nil =>
    cases h'
    rfl
  | cons hrow _ _ ihbelow ihrest =>
    cases h' with
    | cons hrow' hbelow' hrest' =>
      obtain rfl := Option.some.inj (hrow.symm.trans hrow')
      rw [ihbelow hbelow', ihrest hrest']

end Visits

/-! ## Parents and children -/

/-- Rows name each other as parent and child, and come in the order in which they are named. -/
structure Linked (rows : List NodeRow) : Prop where
  parentOf?_zero : parentOf? rows 0 = none
  exists_parent : ∀ id < rows.length, id ≠ 0 →
    ∃ parent, parentOf? rows id = some parent ∧ id ∈ childrenOf rows parent
  of_mem_children : ∀ {parent id}, id ∈ childrenOf rows parent →
    parentOf? rows id = some parent ∧ parent < id
  increasing : ∀ parent, (childrenOf rows parent).Pairwise (· < ·)

namespace Linked

variable {rows : List NodeRow} {parent id id' place : Nat}

theorem nodup (h : Linked rows) (parent : Nat) : (childrenOf rows parent).Nodup :=
  (h.increasing parent).imp Nat.ne_of_lt

/-- A node among the children of its parent: the move is from the one place where it stands. -/
theorem siblingOf?_eq (h : Linked rows) (hplace : (childrenOf rows parent)[place]? = some id)
    (move : Nat → Option Nat) :
    siblingOf? rows id move =
      (move place).bind fun target => (childrenOf rows parent)[target]? := by
  have hmem := List.mem_of_getElem? hplace
  obtain ⟨hlt, rfl⟩ := List.getElem?_eq_some_iff.mp hplace
  have hidx : (childrenOf rows parent).idxOf? (childrenOf rows parent)[place] = some place := by
    refine List.idxOf?_eq_some_iff.mpr ⟨hlt, rfl, fun j hj heq => ?_⟩
    have hsame := (h.nodup parent).getElem_inj_iff.mp heq
    omega
  simp only [siblingOf?, (h.of_mem_children hmem).1, hidx, Option.bind_eq_bind, Option.bind_some]

theorem siblingOf?_eq_some (h : Linked rows) {move : Nat → Option Nat} :
    siblingOf? rows id move = some id' ↔
      ∃ parent place, (childrenOf rows parent)[place]? = some id ∧
        ∃ target, move place = some target ∧ (childrenOf rows parent)[target]? = some id' := by
  constructor
  · intro hsibling
    simp only [siblingOf?, Option.bind_eq_bind, Option.bind_eq_some_iff] at hsibling
    obtain ⟨parent, -, place, hplace, target, hmove, htarget⟩ := hsibling
    obtain ⟨hlt, hid, -⟩ := List.idxOf?_eq_some_iff.mp hplace
    exact ⟨parent, place, List.getElem?_eq_some_iff.mpr ⟨hlt, hid⟩, target, hmove, htarget⟩
  · rintro ⟨parent, place, hplace, target, hmove, htarget⟩
    rw [h.siblingOf?_eq hplace, hmove, Option.bind_some, htarget]

/-- The next sibling of a node is the one whose previous sibling it is. -/
theorem nextSiblingOf?_eq_some_iff (h : Linked rows) :
    nextSiblingOf? rows id = some id' ↔ prevSiblingOf? rows id' = some id := by
  rw [nextSiblingOf?, prevSiblingOf?, h.siblingOf?_eq_some, h.siblingOf?_eq_some]
  constructor
  · rintro ⟨parent, place, hid, target, hmove, hid'⟩
    obtain rfl := Option.some.inj hmove
    exact ⟨parent, place + 1, hid', place, by simp, hid⟩
  · rintro ⟨parent, place, hid', target, hmove, hid⟩
    split at hmove
    · cases hmove
    · next hne =>
      obtain rfl := Option.some.inj hmove
      refine ⟨parent, place - 1, hid, place, ?_, hid'⟩
      rw [Nat.sub_add_cancel (Nat.pos_of_ne_zero hne)]

end Linked

end NodeTable

/-! ## The rows of a numbered tree -/

namespace Tree

open NodeTable

/-- The row of a node that has the given parent. -/
def row (parent : Option Nat) (t : Tree NodeInfo) : NodeRow :=
  ⟨t.label, parent, t.children.map (·.label.id)⟩

theorem map_info_rows (parent : Option Nat) (t : Tree NodeInfo) :
    (t.rows parent).map (·.info) = t.labels := by
  induction t using childInduction generalizing parent with
  | node n ts ih =>
    rw [rows_node, labels_node, List.map_cons, List.map_flatMap]
    exact congrArg _ (List.flatMap_congr fun t ht => ih t ht _)

theorem row_mem_rows (parent : Option Nat) (t : Tree NodeInfo) : t.row parent ∈ t.rows parent := by
  cases t with
  | node n ts =>
    rw [rows_node]
    exact List.mem_cons_self

/-- The rows of a tree are that of the root and those of the children of all nodes. -/
theorem mem_rows_iff {parent : Option Nat} {t : Tree NodeInfo} {r : NodeRow} :
    r ∈ t.rows parent ↔
      r = t.row parent ∨ ∃ u ∈ t.subtrees, ∃ v ∈ u.children, r = v.row (some u.label.id) := by
  induction t using childInduction generalizing parent with
  | node n ts ih =>
    rw [rows_node, List.mem_cons, List.mem_flatMap, subtrees_node, List.exists_mem_cons_iff]
    refine or_congr Iff.rfl ⟨?_, ?_⟩
    · rintro ⟨t, ht, hr⟩
      rcases (ih t ht).mp hr with rfl | ⟨u, hu, hbelow⟩
      · exact Or.inl ⟨t, ht, rfl⟩
      · exact Or.inr ⟨u, List.mem_flatMap.mpr ⟨t, ht, hu⟩, hbelow⟩
    · rintro (⟨t, ht, rfl⟩ | ⟨u, hu, hbelow⟩)
      · exact ⟨t, ht, row_mem_rows _ t⟩
      · obtain ⟨t, ht, hu⟩ := List.mem_flatMap.mp hu
        exact ⟨t, ht, (ih t ht).mpr (Or.inr ⟨u, hu, hbelow⟩)⟩

theorem exists_row_mem_rows (parent : Option Nat) {t u : Tree NodeInfo} (hu : u ∈ t.subtrees) :
    ∃ q, u.row q ∈ t.rows parent := by
  induction t using childInduction generalizing parent with
  | node n ts ih =>
    rw [subtrees_node] at hu
    rcases List.mem_cons.mp hu with rfl | hu
    · exact ⟨parent, row_mem_rows _ _⟩
    · obtain ⟨t, ht, hu⟩ := List.mem_flatMap.mp hu
      obtain ⟨q, hq⟩ := ih t ht (some n.id) hu
      refine ⟨q, ?_⟩
      rw [rows_node]
      exact List.mem_cons_of_mem _ (List.mem_flatMap.mpr ⟨t, ht, hq⟩)

theorem visits_all {rows : List NodeRow} {ts : List (Tree NodeInfo)}
    (h : ∀ t ∈ ts, Visits rows [t.label.id] (t.labels.map (·.id))) :
    Visits rows (ts.map (·.label.id)) ((ts.flatMap labels).map (·.id)) := by
  induction ts with
  | nil => exact .nil
  | cons t ts ih =>
    rw [List.forall_mem_cons] at h
    rw [List.flatMap_cons, List.map_append]
    exact h.1.append (ih h.2)

/-- The walk through the children that rows name is the walk over the tree. -/
theorem visits_labels {rows : List NodeRow} (t : Tree NodeInfo)
    (h : ∀ u ∈ t.subtrees, ∃ parent, rows[u.label.id]? = some (u.row parent)) :
    Visits rows [t.label.id] (t.labels.map (·.id)) := by
  induction t using childInduction with
  | node n ts ih =>
    obtain ⟨parent, hrow⟩ := h _ (mem_subtrees_self _)
    have hbelow : Visits rows (ts.map (·.label.id)) ((ts.flatMap labels).map (·.id)) := by
      refine visits_all fun t ht => ih t ht fun u hu => h u ?_
      rw [subtrees_node]
      exact List.mem_cons_of_mem _ (List.mem_flatMap.mpr ⟨t, ht, hu⟩)
    have hvisits := Visits.cons hrow hbelow .nil
    rw [List.append_nil] at hvisits
    rw [labels_node]
    exact hvisits

section

variable {root u v : Tree NodeInfo} (h : Numbered (root.rows none))

theorem getElem?_rows_zero (root : Tree NodeInfo) :
    (root.rows none)[0]? = some (root.row none) := by
  cases root with
  | node n ts =>
    rw [rows_node]
    rfl

include h

theorem id_root : root.label.id = 0 := h.id_eq (getElem?_rows_zero root)

theorem getElem?_rows_child (hu : u ∈ root.subtrees) (hv : v ∈ u.children) :
    (root.rows none)[v.label.id]? = some (v.row (some u.label.id)) :=
  h.getElem?_id (mem_rows_iff.mpr (Or.inr ⟨u, hu, v, hv, rfl⟩))

theorem getElem?_rows_subtree (hu : u ∈ root.subtrees) :
    ∃ parent, (root.rows none)[u.label.id]? = some (u.row parent) := by
  obtain ⟨parent, hmem⟩ := exists_row_mem_rows none hu
  exact ⟨parent, h.getElem?_id hmem⟩

theorem childrenOf_label (hu : u ∈ root.subtrees) :
    childrenOf (root.rows none) u.label.id = u.children.map (·.label.id) := by
  obtain ⟨parent, hrow⟩ := getElem?_rows_subtree h hu
  rw [childrenOf, hrow]
  rfl

theorem parentOf?_label (hu : u ∈ root.subtrees) (hv : v ∈ u.children) :
    parentOf? (root.rows none) v.label.id = some u.label.id := by
  rw [parentOf?, getElem?_rows_child h hu hv]
  rfl

/-- Every number is that of a node. -/
theorem exists_subtree {id : Nat} (hid : id < (root.rows none).length) :
    ∃ u ∈ root.subtrees, u.label.id = id ∧
      (id ≠ 0 → ∃ w ∈ root.subtrees, u ∈ w.children) := by
  have hget := List.getElem?_eq_getElem hid
  have hrow := h.id_eq hget
  rcases mem_rows_iff.mp (List.getElem_mem hid) with heq | ⟨w, hw, v, hv, heq⟩
  · rw [heq] at hrow
    exact ⟨root, mem_subtrees_self root, hrow, fun hne => absurd (hrow.symm.trans (id_root h)) hne⟩
  · rw [heq] at hrow
    exact ⟨v, mem_subtrees_of_mem_children hw hv, hrow, fun _ => ⟨w, hw, hv⟩⟩

theorem map_id_labels : root.labels.map (·.id) = List.range (root.rows none).length := by
  rw [← map_info_rows none, List.map_map]
  exact h

/-- Numbers increase along the walk from any node. -/
theorem pairwise_id_labels (hu : u ∈ root.subtrees) : (u.labels.map (·.id)).Pairwise (· < ·) := by
  have hsub := (labels_sublist hu).map (·.id)
  rw [map_id_labels h] at hsub
  exact List.pairwise_lt_range.sublist hsub

theorem pairwise_id_children (hu : u ∈ root.subtrees) :
    (u.label.id :: u.children.map (·.label.id)).Pairwise (· < ·) := by
  refine (pairwise_id_labels h hu).sublist ?_
  cases u with
  | node n ts =>
    have hsub := ((map_label_sublist ts).map (·.id)).cons_cons n.id
    rw [List.map_map] at hsub
    rw [labels_node]
    exact hsub

/-- **The rows of a numbered tree** name each other as the tree has it. -/
theorem linked_rows : Linked (root.rows none) where
  parentOf?_zero := by
    rw [parentOf?, getElem?_rows_zero]
    rfl
  exists_parent id hid hne := by
    obtain ⟨v, -, rfl, hparent⟩ := exists_subtree h hid
    obtain ⟨u, hu, hv⟩ := hparent hne
    refine ⟨u.label.id, parentOf?_label h hu hv, ?_⟩
    rw [childrenOf_label h hu]
    exact List.mem_map_of_mem hv
  of_mem_children {parent id} hmem := by
    by_cases hlt : parent < (root.rows none).length
    · obtain ⟨u, hu, rfl, -⟩ := exists_subtree h hlt
      rw [childrenOf_label h hu] at hmem
      obtain ⟨v, hv, rfl⟩ := List.mem_map.mp hmem
      exact ⟨parentOf?_label h hu hv, List.rel_of_pairwise_cons (pairwise_id_children h hu) hmem⟩
    · rw [childrenOf, List.getElem?_eq_none (Nat.le_of_not_lt hlt)] at hmem
      cases hmem
  increasing parent := by
    by_cases hlt : parent < (root.rows none).length
    · obtain ⟨u, hu, rfl, -⟩ := exists_subtree h hlt
      rw [childrenOf_label h hu]
      exact (pairwise_id_children h hu).of_cons
    · rw [childrenOf, List.getElem?_eq_none (Nat.le_of_not_lt hlt)]
      exact .nil

theorem visits_rows : Visits (root.rows none) [0] (List.range (root.rows none).length) := by
  have hvisits := visits_labels root fun u hu => getElem?_rows_subtree h hu
  rwa [id_root h, map_id_labels h] at hvisits

end

end Tree

/-! ## Tables and cursors -/

namespace NodeTable

/-- One goes about in a table as in a tree. -/
structure Describes (rows : List NodeRow) (t : Tree NodeInfo) : Prop where
  map_info : rows.map (·.info) = t.labels
  map_id : t.labels.map (·.id) = List.range rows.length
  getElem? : ∀ c ∈ t.cursors, rows[c.label.id]? =
    some ⟨c.label, c.parent?.map (·.label.id), c.children.map (·.label.id)⟩
  next : ∀ c ∈ t.cursors, nextSiblingOf? rows c.label.id = c.nextSibling?.map (·.label.id)
  prev : ∀ c ∈ t.cursors, prevSiblingOf? rows c.label.id = c.prevSibling?.map (·.label.id)

end NodeTable

section

open NodeTable

variable {root : Tree NodeInfo} {c p : Cursor NodeInfo}

theorem Cursor.tree_mem_subtrees (hc : c ∈ root.cursors) : c.tree ∈ root.subtrees := by
  rw [← root.map_tree_cursors]
  exact List.mem_map_of_mem hc

theorem Cursor.tree_mem_children (hc : c ∈ p.children) : c.tree ∈ p.tree.children := by
  rw [← p.map_tree_children]
  exact List.mem_map_of_mem hc

theorem Cursor.map_id_children (c : Cursor NodeInfo) :
    c.tree.children.map (·.label.id) = c.children.map (·.label.id) := by
  rw [← c.map_tree_children, List.map_map]
  rfl

variable (h : Numbered (root.rows none))

include h

/-- The children of a parent in a table, seen from one of them. -/
theorem Cursor.childrenOf_parent (hp : p ∈ root.cursors) (hc : c ∈ p.children) :
    childrenOf (root.rows none) p.label.id =
      (c.before.map (·.label.id)).reverse ++ c.label.id :: c.after.map (·.label.id) := by
  rw [label, Tree.childrenOf_label h (tree_mem_subtrees hp), map_id_children, children_eq_of_mem hc,
    List.map_append, List.map_reverse, List.map_cons]

theorem Cursor.siblingOf?_label (hp : p ∈ root.cursors) (hc : c ∈ p.children)
    (move : Nat → Option Nat) :
    siblingOf? (root.rows none) c.label.id move = (move c.before.length).bind fun target =>
      ((c.before.map (·.label.id)).reverse ++ c.label.id :: c.after.map (·.label.id))[target]? := by
  have hchildren := childrenOf_parent h hp hc
  have hplace : (childrenOf (root.rows none) p.label.id)[c.before.length]? = some c.label.id := by
    rw [hchildren, List.getElem?_append_right (by simp)]
    simp
  rw [(Tree.linked_rows h).siblingOf?_eq hplace, hchildren]

theorem Tree.siblingOf?_root (move : Nat → Option Nat) :
    siblingOf? (root.rows none) root.label.id move = none := by
  rw [siblingOf?, id_root h, (linked_rows h).parentOf?_zero]
  rfl

/-- **The rows of a numbered tree** are what its cursors see. -/
theorem Tree.describes_rows : Describes (root.rows none) root where
  map_info := map_info_rows none root
  map_id := map_id_labels h
  getElem? c hc := by
    rw [← c.map_id_children]
    rcases mem_children_of_mem_cursors hc with rfl | ⟨p, hp, hchild⟩
    · rw [Cursor.label, Cursor.tree, id_root h, getElem?_rows_zero]
      rfl
    · rw [Cursor.label, getElem?_rows_child h (Cursor.tree_mem_subtrees hp)
        (Cursor.tree_mem_children hchild), Cursor.parent?_of_mem_children hchild]
      rfl
  next c hc := by
    rcases mem_children_of_mem_cursors hc with rfl | ⟨p, hp, hchild⟩
    · exact siblingOf?_root h _
    · rw [nextSiblingOf?, Cursor.siblingOf?_label h hp hchild, Option.bind_some,
        List.getElem?_append_right (by simp), Cursor.nextSibling?, ← List.head?_map]
      simp [List.head?_eq_getElem?]
  prev c hc := by
    rcases mem_children_of_mem_cursors hc with rfl | ⟨p, hp, hchild⟩
    · exact siblingOf?_root h _
    · rw [prevSiblingOf?, Cursor.siblingOf?_label h hp hchild, Cursor.prevSibling?]
      cases c.before with
      | nil => rfl
      | cons d ds => simp

end

/-! ## Tables that calls make -/

namespace NodeTable

/-- A table lists its nodes parents first and children in order. -/
structure IsPreorder (rows : List NodeRow) : Prop where
  /-- The walk from the first row meets every row once, in order. -/
  visits_iff : ∀ ids, Visits rows [0] ids ↔ ids = List.range rows.length
  parentOf?_zero : parentOf? rows 0 = none
  exists_parent : ∀ id < rows.length, id ≠ 0 →
    ∃ parent < id, parentOf? rows id = some parent ∧ (childrenOf rows parent).count id = 1
  parentOf?_of_mem : ∀ parent, ∀ id ∈ childrenOf rows parent, parentOf? rows id = some parent
  increasing : ∀ parent, (childrenOf rows parent).Pairwise (· < ·)
  next_iff_prev : ∀ id id', nextSiblingOf? rows id = some id' ↔ prevSiblingOf? rows id' = some id

theorem Linked.isPreorder {rows : List NodeRow} (h : Linked rows)
    (hvisits : Visits rows [0] (List.range rows.length)) : IsPreorder rows where
  visits_iff ids := ⟨fun hids => hids.unique hvisits, fun hids => hids ▸ hvisits⟩
  parentOf?_zero := h.parentOf?_zero
  exists_parent id hid hne := by
    obtain ⟨parent, hparent, hmem⟩ := h.exists_parent id hid hne
    exact ⟨parent, (h.of_mem_children hmem).2, hparent,
      List.count_eq_one_of_mem (h.nodup parent) hmem⟩
  parentOf?_of_mem parent id hmem := (h.of_mem_children hmem).1
  increasing := h.increasing
  next_iff_prev id id' := h.nextSiblingOf?_eq_some_iff

end NodeTable

/-- **Whatever calls make a table**, its rows are in the order of the walk, and they describe the
tree that the calls make. -/
theorem Builder.preorder_of_calls (source : List Char) (root : NodeShape) (start startByte : Nat)
    {calls : List Call} (hroot : keepsRoot calls = true) (stop stopByte : Nat) :
    let rows :=
      (calls.foldl NodeTable.perform (.start source root start startByte)).finish stop stopByte
    let tree := (calls.foldl perform (startAt source root start startByte)).finish stop stopByte
    NodeTable.IsPreorder rows ∧ NodeTable.Describes rows tree.root := by
  intro rows tree
  have htracks := (Tracks.start source root start startByte).foldl_perform hroot
  obtain ⟨hrows, hnumbered⟩ := htracks.finish stop stopByte
  change rows = tree.root.rows none at hrows
  change Numbered rows at hnumbered
  rw [hrows] at hnumbered ⊢
  exact ⟨(Tree.linked_rows hnumbered).isPreorder (Tree.visits_rows hnumbered),
    Tree.describes_rows hnumbered⟩

/-- A call and, after a blank, another name. -/
theorem Builder.preorder_of_calls_nested :
    let calls : List Call :=
      [.enter { kind := "call", named := true } 0 0, .leaf { kind := "identifier" } ⟨0, 1⟩ ⟨0, 1⟩,
        .leaf { kind := "(" } ⟨1, 2⟩ ⟨1, 2⟩, .markError, .leave 2 2, .gap ⟨2, 3⟩ ⟨2, 3⟩,
        .leaf { kind := "identifier" } ⟨3, 4⟩ ⟨3, 4⟩]
    let rows :=
      (calls.foldl NodeTable.perform (.start "f( y".toList { kind := "root" } 0 0)).finish 4 4
    keepsRoot calls = true ∧ rows.map (·.children) = [[1, 4, 5], [2, 3], [], [], [], []] ∧
      NodeTable.IsPreorder rows :=
  ⟨rfl, rfl, (preorder_of_calls _ _ 0 0 rfl 4 4).1⟩

end SourceEditor

/-!
# Trees and cursors

`Tree α` is a tree whose nodes carry labels and whose children are in order. A `Cursor α` is a node
of a tree together with everything around it, so that one can go from it to its parent and its
siblings.

* `Tree.labels` is the walk that meets parents before children and children in order, and
  `Tree.cursors` the same walk with the surroundings kept.
* `Cursor.before` and `Cursor.after` are the siblings on either side, nearest first.
-/

namespace SourceEditor

/-- An ordered tree with labelled nodes. -/
inductive Tree (α : Type) where
  | node (label : α) (children : List (Tree α))
  deriving Repr

namespace Tree

variable {α β : Type}

def label : Tree α → α
  | node a _ => a

def children : Tree α → List (Tree α)
  | node _ ts => ts

mutual

/-- The labels of all nodes, parents before children and children in order. -/
def labels : Tree α → List α
  | node a ts => a :: labelsAll ts

/-- The labels of all nodes of several trees, one tree after the other. -/
def labelsAll : List (Tree α) → List α
  | [] => []
  | t :: ts => labels t ++ labelsAll ts

end

mutual

/-- The labels of the childless nodes, in order. -/
def leaves : Tree α → List α
  | node a [] => [a]
  | node _ (t :: ts) => leaves t ++ leavesAll ts

/-- The labels of the childless nodes of several trees, one tree after the other. -/
def leavesAll : List (Tree α) → List α
  | [] => []
  | t :: ts => leaves t ++ leavesAll ts

end

mutual

/-- The tree of the same shape with other labels. -/
def map (f : α → β) : Tree α → Tree β
  | node a ts => node (f a) (mapAll f ts)

/-- The trees of the same shapes with other labels. -/
def mapAll (f : α → β) : List (Tree α) → List (Tree β)
  | [] => []
  | t :: ts => map f t :: mapAll f ts

end

mutual

/-- The number of nodes. -/
def size : Tree α → Nat
  | node _ ts => 1 + sizeAll ts

/-- The number of nodes of several trees. -/
def sizeAll : List (Tree α) → Nat
  | [] => 0
  | t :: ts => size t + sizeAll ts

end

end Tree

/-- A node of a tree with its surroundings: its parent and the siblings on either side, nearest
first. -/
inductive Cursor (α : Type) where
  | root (tree : Tree α)
  | child (parent : Cursor α) (before : List (Tree α)) (tree : Tree α) (after : List (Tree α))
  deriving Repr

namespace Cursor

variable {α : Type}

/-- The node itself, with what is below it. -/
def tree : Cursor α → Tree α
  | root t => t
  | child _ _ t _ => t

def label (c : Cursor α) : α := c.tree.label

def parent? : Cursor α → Option (Cursor α)
  | root _ => none
  | child p _ _ _ => some p

/-- The cursors at the trees of `before`, going away from `here`. -/
def walkBefore (parent : Cursor α) : (before : List (Tree α)) → (here : Tree α) →
    (after : List (Tree α)) → List (Cursor α)
  | [], _, _ => []
  | t :: ts, here, after =>
    child parent ts t (here :: after) :: walkBefore parent ts t (here :: after)

/-- The cursors at the trees of `after`, going away from `here`. -/
def walkAfter (parent : Cursor α) : (before : List (Tree α)) → (here : Tree α) →
    (after : List (Tree α)) → List (Cursor α)
  | _, _, [] => []
  | before, here, t :: ts =>
    child parent (here :: before) t ts :: walkAfter parent (here :: before) t ts

/-- The siblings before a node, nearest first. -/
def before : Cursor α → List (Cursor α)
  | root _ => []
  | child p bs t as => walkBefore p bs t as

/-- The siblings after a node, nearest first. -/
def after : Cursor α → List (Cursor α)
  | root _ => []
  | child p bs t as => walkAfter p bs t as

def prevSibling? (c : Cursor α) : Option (Cursor α) := c.before.head?

def nextSibling? (c : Cursor α) : Option (Cursor α) := c.after.head?

/-- The children of a node, in order. -/
def children (c : Cursor α) : List (Cursor α) :=
  match c.tree.children with
  | [] => []
  | t :: ts => child c [] t ts :: walkAfter c [] t ts

def firstChild? (c : Cursor α) : Option (Cursor α) := c.children.head?

mutual

/-- The cursor `c`, at the tree given after it, and all cursors below. -/
def walk (c : Cursor α) : Tree α → List (Cursor α)
  | .node _ ts => c :: walkChildren c [] ts

/-- The cursors at and below the children `ts` of `parent`, of which those in `before` are done. -/
def walkChildren (parent : Cursor α) (before : List (Tree α)) : List (Tree α) → List (Cursor α)
  | [] => []
  | t :: ts => walk (child parent before t ts) t ++ walkChildren parent (t :: before) ts

end

end Cursor

namespace Tree

variable {α : Type}

/-- All nodes with their surroundings, parents before children and children in order. -/
def cursors (t : Tree α) : List (Cursor α) := (Cursor.root t).walk t

end Tree

end SourceEditor

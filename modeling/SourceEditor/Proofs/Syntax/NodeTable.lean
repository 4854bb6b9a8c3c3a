import SourceEditor.Proofs.Syntax.Tree
import SourceEditor.Syntax.Builder
import Mathlib.Data.List.Basic

/-!
# The table of nodes

A syntax tree can be written down as a table with one row for each node. Nodes are numbered in the
order in which they are added, and a row names the parent and the children of its node by their
numbers. `NodeTable` makes such a table from the calls that make a tree: a new node gets a row at
the end, and its number is added to the children of the innermost open node.

The table follows the tree (`Builder.Tracks`): at any time its rows are those that the walk over the
open nodes meets (`stackRows`), in this order. One call keeps that up (`Builder.Tracks.perform`) and
so do any number of calls, as long as the root is not closed. The finished tree is met row by row
(`Builder.Tracks.finish`).
-/

namespace SourceEditor

/-! ## Rows -/

/-- A node in a table, with the numbers of its parent and of its children. -/
structure NodeRow where
  info : NodeInfo
  parent : Option Nat
  children : List Nat
  deriving DecidableEq, Repr

namespace NodeInfo

/-- The node with other ends. -/
def stopAt (stop stopByte : Nat) (n : NodeInfo) : NodeInfo :=
  { n with range := { n.range with stop }, bytes := { n.bytes with stop := stopByte } }

def markError (n : NodeInfo) : NodeInfo := { n with error := true }

/-- The node with a number, marked as an error, and any other node as it is. -/
def markIf (id : Nat) (n : NodeInfo) : NodeInfo := if n.id = id then n.markError else n

theorem id_stopAt (stop stopByte : Nat) (n : NodeInfo) : (n.stopAt stop stopByte).id = n.id := rfl

theorem id_markError (n : NodeInfo) : n.markError.id = n.id := rfl

theorem id_markIf (id : Nat) (n : NodeInfo) : (n.markIf id).id = n.id := by
  unfold markIf
  split <;> rfl

end NodeInfo

namespace NodeRow

def addChild (id : Nat) (r : NodeRow) : NodeRow := { r with children := r.children ++ [id] }

def mapInfo (f : NodeInfo → NodeInfo) (r : NodeRow) : NodeRow := { r with info := f r.info }

end NodeRow

/-- The rows stand where their numbers say. -/
def Numbered (rows : List NodeRow) : Prop := rows.map (·.info.id) = List.range rows.length

namespace Numbered

variable {rows front back : List NodeRow} {row : NodeRow}

theorem id_eq_length (h : Numbered (front ++ row :: back)) : row.info.id = front.length := by
  have hget := congrArg (·[front.length]?) h
  simpa using hget

theorem getElem?_id (h : Numbered rows) (hrow : row ∈ rows) : rows[row.info.id]? = some row := by
  obtain ⟨front, back, rfl⟩ := List.append_of_mem hrow
  rw [h.id_eq_length, List.getElem?_append_right (Nat.le_refl _), Nat.sub_self]
  rfl

theorem id_eq (h : Numbered rows) {k : Nat} (hrow : rows[k]? = some row) : row.info.id = k := by
  obtain ⟨hlt, rfl⟩ := List.getElem?_eq_some_iff.mp hrow
  have hget := congrArg (·[k]?) h
  simpa [hlt] using hget

theorem concat (h : Numbered rows) (hrow : row.info.id = rows.length) :
    Numbered (rows ++ [row]) := by
  rw [Numbered, List.map_append, h, List.length_append, List.length_singleton, List.range_succ,
    List.map_singleton, hrow]

/-- The row of a number is changed where it stands. -/
theorem modify_id (h : Numbered (front ++ row :: back)) (f : NodeRow → NodeRow) :
    (front ++ row :: back).modify row.info.id f = front ++ f row :: back := by
  rw [h.id_eq_length, List.modify_eq_take_cons_drop (by simp)]
  simp

theorem modify_eq_map (h : Numbered rows) (id : Nat) (f : NodeRow → NodeRow) :
    rows.modify id f = rows.map fun r => if r.info.id = id then f r else r := by
  apply List.ext_getElem?
  intro k
  rw [List.getElem?_map, List.getElem?_modify]
  cases hk : rows[k]? with
  | none => rfl
  | some r =>
    simp [h.id_eq hk, eq_comm]

theorem modify (h : Numbered rows) {f : NodeRow → NodeRow} (hf : ∀ r, (f r).info.id = r.info.id)
    (id : Nat) : Numbered (rows.modify id f) := by
  have hsame : ((·.info.id) ∘ fun r : NodeRow => if r.info.id = id then f r else r) =
      (·.info.id) := by
    funext r
    dsimp only [Function.comp]
    split
    · exact hf r
    · rfl
  rw [h.modify_eq_map, Numbered, List.map_map, List.length_map, hsame]
  exact h

theorem addChild (h : Numbered rows) (parent id : Nat) :
    Numbered (rows.modify parent (.addChild id)) :=
  h.modify (f := .addChild id) (fun _ => rfl) parent

theorem mapInfo (h : Numbered rows) {c : NodeInfo → NodeInfo} (hc : ∀ n, (c n).id = n.id)
    (id : Nat) : Numbered (rows.modify id (.mapInfo c)) :=
  h.modify (f := .mapInfo c) (fun r => hc r.info) id

end Numbered

/-! ## Tables -/

/-- A table of nodes in the making. -/
structure NodeTable where
  source : List Char
  rows : List NodeRow
  /-- The numbers of the open nodes, innermost first. -/
  opened : List Nat
  deriving Repr

namespace NodeTable

/-- Adds a node to the table and to the children of the innermost open node. -/
def push (t : NodeTable) (shape : NodeShape) (range bytes : Span) : NodeTable :=
  let id := t.rows.length
  let linked := match t.opened.head? with
    | some parent => t.rows.modify parent (.addChild id)
    | none => t.rows
  { t with rows := linked ++ [⟨shape.toInfo id range bytes, t.opened.head?, []⟩] }

/-- Adds a node that is open. -/
def enter (t : NodeTable) (shape : NodeShape) (start startByte : Nat) : NodeTable :=
  { t.push shape ⟨start, start⟩ ⟨startByte, startByte⟩ with opened := t.rows.length :: t.opened }

/-- Adds a childless node for source that no node covers. -/
def gap (t : NodeTable) (range bytes : Span) : NodeTable :=
  let isBlank := (range.slice t.source).all Unicode.isWhiteSpace
  t.push { kind := if isBlank then whitespaceKind else textKind } range bytes

def markNode (t : NodeTable) (id : Nat) : NodeTable :=
  { t with rows := t.rows.modify id (.mapInfo .markError) }

/-- Marks the innermost open node as an error. -/
def markError (t : NodeTable) : NodeTable :=
  match t.opened with
  | [] => t
  | id :: _ => t.markNode id

/-- Closes the innermost open node. -/
def leave (t : NodeTable) (stop stopByte : Nat) : NodeTable :=
  match t.opened with
  | [] => t
  | id :: opened => { t with rows := t.rows.modify id (.mapInfo (.stopAt stop stopByte)), opened }

/-- The finished table: every open node is closed, the innermost first. -/
def finish (t : NodeTable) (stop stopByte : Nat) : List NodeRow :=
  t.opened.foldl (fun rows id => rows.modify id (.mapInfo (.stopAt stop stopByte))) t.rows

/-- A table whose first node is open. -/
def start (source : List Char) (root : NodeShape) (start startByte : Nat) : NodeTable :=
  enter ⟨source, [], []⟩ root start startByte

end NodeTable

/-! ## Calls -/

/-- A node with all that is below it, with other labels. -/
def Frame.map (f : NodeInfo → NodeInfo) (frame : Frame) : Frame :=
  ⟨f frame.info, frame.children.map (.map f)⟩

namespace Builder

/-- Marks a node as an error, wherever it is. -/
def markNode (b : Builder) (id : Nat) : Builder :=
  { b with inner := b.inner.map (.markIf id), outer := b.outer.map (.map (.markIf id)) }

/-- A tree of which the root is open and starts at the given offsets. -/
def startAt (source : List Char) (root : NodeShape) (start startByte : Nat) : Builder where
  source := source
  count := 1
  inner := { info := root.toInfo 0 ⟨start, start⟩ ⟨startByte, startByte⟩, children := [] }
  outer := []

/-- What one can do to a tree in the making. -/
inductive Call where
  | enter (shape : NodeShape) (start startByte : Nat)
  | leaf (shape : NodeShape) (range bytes : Span)
  | gap (range bytes : Span)
  | markError
  | markNode (id : Nat)
  | leave (stop stopByte : Nat)
  deriving DecidableEq, Repr

def perform (b : Builder) : Call → Builder
  | .enter shape start startByte => b.enter shape start startByte
  | .leaf shape range bytes => b.leaf shape range bytes
  | .gap range bytes => b.gap range bytes
  | .markError => b.markError
  | .markNode id => b.markNode id
  | .leave stop stopByte => b.leave stop stopByte

/-- How many nodes inside the root are open after a call. The root may not be closed. -/
def Call.depth (depth : Nat) : Call → Option Nat
  | .enter .. => some (depth + 1)
  | .leave .. => if depth = 0 then none else some (depth - 1)
  | _ => some depth

/-- Whether calls leave the root open. -/
def keepsRoot (calls : List Call) : Bool := (calls.foldlM Call.depth 0).isSome

end Builder

def NodeTable.perform (t : NodeTable) : Builder.Call → NodeTable
  | .enter shape start startByte => t.enter shape start startByte
  | .leaf shape range bytes => t.push shape range bytes
  | .gap range bytes => t.gap range bytes
  | .markError => t.markError
  | .markNode id => t.markNode id
  | .leave stop stopByte => t.leave stop stopByte

/-! ## The rows of a tree -/

mutual

/-- The rows of a tree, in the order of the walk. -/
def Tree.rows (parent : Option Nat) : Tree NodeInfo → List NodeRow
  | .node n ts => ⟨n, parent, ts.map (·.label.id)⟩ :: rowsAll n.id ts

/-- The rows of the children of a node, one tree after the other. -/
def Tree.rowsAll (parent : Nat) : List (Tree NodeInfo) → List NodeRow
  | [] => []
  | t :: ts => t.rows (some parent) ++ rowsAll parent ts

end

theorem Tree.rowsAll_eq (parent : Nat) (ts : List (Tree NodeInfo)) :
    rowsAll parent ts = ts.flatMap (rows (some parent)) := by
  induction ts with
  | nil => rfl
  | cons t ts ih => rw [rowsAll, ih, List.flatMap_cons]

theorem Tree.rows_node (parent : Option Nat) (n : NodeInfo) (ts : List (Tree NodeInfo)) :
    (node n ts).rows parent =
      ⟨n, parent, ts.map (·.label.id)⟩ :: ts.flatMap (rows (some n.id)) := by
  rw [rows, rowsAll_eq]

/-- The rows of an open node and its finished children, where the numbers `pending` are those of
further children. -/
def Frame.rows (parent : Option Nat) (pending : List Nat) (f : Frame) : List NodeRow :=
  ⟨f.info, parent, f.children.reverse.map (·.label.id) ++ pending⟩ ::
    f.children.reverse.flatMap (Tree.rows (some f.info.id))

/-- The rows of open nodes, innermost first. Each is a child of the next. -/
def stackRows (pending : List Nat) : List Frame → List NodeRow
  | [] => []
  | f :: fs => stackRows [f.info.id] fs ++ f.rows (fs.head?.map (·.info.id)) pending

section

variable {f : Frame} {fs : List Frame}

/-- A node that is added is the last. -/
theorem stackRows_push_leaf (f : Frame) (fs : List Frame) (n : NodeInfo) :
    stackRows [] (f.push (.node n []) :: fs) =
      stackRows [n.id] (f :: fs) ++ [⟨n, some f.info.id, []⟩] := by
  simp [stackRows, Frame.rows, Frame.push, Tree.rows_node, Tree.label]

theorem stackRows_enter (f : Frame) (fs : List Frame) (n : NodeInfo) :
    stackRows [] (⟨n, []⟩ :: f :: fs) =
      stackRows [n.id] (f :: fs) ++ [⟨n, some f.info.id, []⟩] := by
  simp [stackRows, Frame.rows]

/-- A further child is entered in the row of its parent. -/
theorem stackRows_pending (h : Numbered (stackRows [] (f :: fs))) (id : Nat) :
    (stackRows [] (f :: fs)).modify f.info.id (.addChild id) = stackRows [id] (f :: fs) := by
  rw [stackRows, Frame.rows] at h ⊢
  rw [h.modify_id]
  simp [stackRows, Frame.rows, NodeRow.addChild]

/-- The innermost open node changes in its row. -/
theorem stackRows_mapInfo (h : Numbered (stackRows [] (f :: fs))) {c : NodeInfo → NodeInfo}
    (hc : ∀ n, (c n).id = n.id) :
    (stackRows [] (f :: fs)).modify f.info.id (.mapInfo c) =
      stackRows [] ({ f with info := c f.info } :: fs) := by
  rw [stackRows, Frame.rows] at h ⊢
  rw [h.modify_id]
  simp [stackRows, Frame.rows, NodeRow.mapInfo, hc]

/-- A node that is closed is a child of the next. -/
theorem stackRows_close (f g : Frame) (fs : List Frame) (stop stopByte : Nat) :
    stackRows [] ({ f with info := f.info.stopAt stop stopByte } :: g :: fs) =
      stackRows [] (g.push (f.close stop stopByte) :: fs) := by
  simp [stackRows, Frame.rows, Frame.push, Frame.close, Tree.rows_node, Tree.label, NodeInfo.stopAt]

end

section

variable {c : NodeInfo → NodeInfo} (hc : ∀ n, (c n).id = n.id)

include hc

theorem Tree.map_id_map (ts : List (Tree NodeInfo)) :
    (ts.map (map c)).map (·.label.id) = ts.map (·.label.id) := by
  rw [List.map_map]
  refine List.map_congr_left fun t _ => ?_
  cases t with
  | node n us => exact hc n

theorem Tree.rows_map (parent : Option Nat) (t : Tree NodeInfo) :
    (t.map c).rows parent = (t.rows parent).map (.mapInfo c) := by
  induction t using Tree.childInduction generalizing parent with
  | node n ts ih =>
    have hbelow : (ts.map (map c)).flatMap (rows (some n.id)) =
        (ts.flatMap (rows (some n.id))).map (.mapInfo c) := by
      rw [List.flatMap_map, List.map_flatMap]
      exact List.flatMap_congr fun t ht => ih t ht _
    rw [map_node, rows_node, rows_node, hc, map_id_map hc, hbelow]
    rfl

theorem Frame.rows_map (parent : Option Nat) (pending : List Nat) (f : Frame) :
    (f.map c).rows parent pending = (f.rows parent pending).map (.mapInfo c) := by
  have hbelow : (f.children.reverse.map (.map c)).flatMap (Tree.rows (some f.info.id)) =
      (f.children.reverse.flatMap (Tree.rows (some f.info.id))).map (.mapInfo c) := by
    rw [List.flatMap_map, List.map_flatMap]
    exact List.flatMap_congr fun t _ => Tree.rows_map hc _ t
  rw [rows, rows, Frame.map, hc, ← List.map_reverse, Tree.map_id_map hc, hbelow]
  rfl

theorem stackRows_map (pending : List Nat) (fs : List Frame) :
    stackRows pending (fs.map (.map c)) = (stackRows pending fs).map (.mapInfo c) := by
  induction fs generalizing pending with
  | nil => rfl
  | cons f fs ih =>
    have hid : (f.map c).info.id = f.info.id := hc f.info
    have hparent : (fs.map (Frame.map c)).head?.map (·.info.id) = fs.head?.map (·.info.id) := by
      rw [List.head?_map, Option.map_map]
      congr 1
      funext g
      exact hc g.info
    rw [List.map_cons, stackRows, stackRows, hid, hparent, ih, Frame.rows_map hc, List.map_append]

end

theorem Numbered.modify_markError {rows : List NodeRow} (h : Numbered rows) (id : Nat) :
    rows.modify id (.mapInfo .markError) = rows.map (.mapInfo (.markIf id)) := by
  rw [h.modify_eq_map]
  refine List.map_congr_left fun r _ => ?_
  simp only [NodeRow.mapInfo, NodeInfo.markIf]
  split <;> rfl

/-! ## The table follows the tree -/

namespace Builder

/-- A table has the nodes of a tree in the making, in the order of the walk. -/
structure Tracks (b : Builder) (t : NodeTable) : Prop where
  source_eq : t.source = b.source
  rows_eq : t.rows = stackRows [] (b.inner :: b.outer)
  opened_eq : t.opened = (b.inner :: b.outer).map (·.info.id)
  count_eq : b.count = t.rows.length
  numbered : Numbered t.rows

namespace Tracks

variable {b : Builder} {t : NodeTable}

theorem start (source : List Char) (root : NodeShape) (start startByte : Nat) :
    (startAt source root start startByte).Tracks (.start source root start startByte) :=
  ⟨rfl, rfl, rfl, rfl, rfl⟩

theorem numbered_stackRows (h : b.Tracks t) : Numbered (stackRows [] (b.inner :: b.outer)) :=
  h.rows_eq ▸ h.numbered

theorem head?_opened (h : b.Tracks t) : t.opened.head? = some b.inner.info.id := by
  rw [h.opened_eq]
  rfl

/-- A new row at the end, with its number in the row of the innermost open node. -/
theorem rows_push (h : b.Tracks t) (shape : NodeShape) (range bytes : Span) :
    (t.push shape range bytes).rows = stackRows [b.count] (b.inner :: b.outer) ++
      [⟨shape.toInfo b.count range bytes, some b.inner.info.id, []⟩] := by
  rw [← stackRows_pending h.numbered_stackRows, ← h.rows_eq, h.count_eq]
  simp only [NodeTable.push, h.head?_opened]

theorem numbered_push (h : b.Tracks t) (shape : NodeShape) (range bytes : Span) :
    Numbered (t.push shape range bytes).rows := by
  simp only [NodeTable.push, h.head?_opened]
  refine (h.numbered.addChild _ _).concat ?_
  rw [List.length_modify]
  rfl

theorem length_push (h : b.Tracks t) (shape : NodeShape) (range bytes : Span) :
    (t.push shape range bytes).rows.length = b.count + 1 := by
  simp only [NodeTable.push, h.head?_opened, List.length_append, List.length_modify, h.count_eq,
    List.length_singleton]

theorem leaf (h : b.Tracks t) (shape : NodeShape) (range bytes : Span) :
    (b.leaf shape range bytes).Tracks (t.push shape range bytes) where
  source_eq := h.source_eq
  rows_eq := (h.rows_push shape range bytes).trans
    (stackRows_push_leaf b.inner b.outer (shape.toInfo b.count range bytes)).symm
  opened_eq := h.opened_eq
  count_eq := (h.length_push shape range bytes).symm
  numbered := h.numbered_push shape range bytes

theorem gap (h : b.Tracks t) (range bytes : Span) :
    (b.gap range bytes).Tracks (t.gap range bytes) := by
  rw [NodeTable.gap, h.source_eq]
  exact h.leaf _ range bytes

theorem enter (h : b.Tracks t) (shape : NodeShape) (start startByte : Nat) :
    (b.enter shape start startByte).Tracks (t.enter shape start startByte) where
  source_eq := h.source_eq
  rows_eq := (h.rows_push shape _ _).trans
    (stackRows_enter b.inner b.outer
      (shape.toInfo b.count ⟨start, start⟩ ⟨startByte, startByte⟩)).symm
  opened_eq := by
    simp only [NodeTable.enter, h.opened_eq, ← h.count_eq]
    rfl
  count_eq := (h.length_push shape _ _).symm
  numbered := h.numbered_push shape _ _

/-- The innermost open node changes. -/
theorem rows_modify (h : b.Tracks t) {c : NodeInfo → NodeInfo} (hc : ∀ n, (c n).id = n.id) :
    t.rows.modify b.inner.info.id (.mapInfo c) =
      stackRows [] ({ b.inner with info := c b.inner.info } :: b.outer) := by
  rw [h.rows_eq, stackRows_mapInfo h.numbered_stackRows hc]

theorem markError (h : b.Tracks t) : b.markError.Tracks t.markError := by
  have ht : t.markError = t.markNode b.inner.info.id := by
    rw [NodeTable.markError, h.opened_eq]
    rfl
  rw [ht]
  refine ⟨h.source_eq, h.rows_modify NodeInfo.id_markError, h.opened_eq, ?_,
    h.numbered.mapInfo NodeInfo.id_markError _⟩
  rw [NodeTable.markNode, List.length_modify]
  exact h.count_eq

theorem markNode (h : b.Tracks t) (id : Nat) : (b.markNode id).Tracks (t.markNode id) where
  source_eq := h.source_eq
  rows_eq := by
    rw [NodeTable.markNode, h.numbered.modify_markError, h.rows_eq]
    exact (stackRows_map (NodeInfo.id_markIf id) [] _).symm
  opened_eq := by
    have hids : ((b.inner :: b.outer).map (Frame.map (.markIf id))).map (·.info.id) =
        (b.inner :: b.outer).map (·.info.id) := by
      rw [List.map_map]
      exact List.map_congr_left fun f _ => NodeInfo.id_markIf id f.info
    exact h.opened_eq.trans hids.symm
  count_eq := by
    rw [NodeTable.markNode, List.length_modify]
    exact h.count_eq
  numbered := h.numbered.mapInfo NodeInfo.id_markError id

theorem leave (h : b.Tracks t) (hopen : b.outer ≠ []) (stop stopByte : Nat) :
    (b.leave stop stopByte).Tracks (t.leave stop stopByte) := by
  obtain ⟨g, fs, houter⟩ := List.exists_cons_of_ne_nil hopen
  have hb : b.leave stop stopByte =
      { b with inner := g.push (b.inner.close stop stopByte), outer := fs } := by
    rw [Builder.leave, houter]
  have ht : t.leave stop stopByte =
      ⟨t.source, t.rows.modify b.inner.info.id (.mapInfo (.stopAt stop stopByte)),
        (g :: fs).map (·.info.id)⟩ := by
    rw [NodeTable.leave, h.opened_eq, houter]
    rfl
  rw [hb, ht]
  refine ⟨h.source_eq, ?_, rfl, ?_, h.numbered.mapInfo (NodeInfo.id_stopAt stop stopByte) _⟩
  · rw [h.rows_modify (NodeInfo.id_stopAt stop stopByte), houter, stackRows_close]
  · rw [List.length_modify]
    exact h.count_eq

/-- **One call** does the same to the table as to the tree. -/
theorem perform (h : b.Tracks t) {call : Call} {depth : Nat}
    (hdepth : call.depth b.outer.length = some depth) :
    (b.perform call).Tracks (t.perform call) ∧ (b.perform call).outer.length = depth := by
  cases call with
  | enter shape start startByte =>
    obtain rfl := Option.some.inj hdepth
    exact ⟨h.enter shape start startByte, rfl⟩
  | leaf shape range bytes => exact ⟨h.leaf shape range bytes, Option.some.inj hdepth⟩
  | gap range bytes => exact ⟨h.gap range bytes, Option.some.inj hdepth⟩
  | markError => exact ⟨h.markError, Option.some.inj hdepth⟩
  | markNode id =>
    obtain rfl := Option.some.inj hdepth
    exact ⟨h.markNode id, List.length_map _⟩
  | leave stop stopByte =>
    rw [Call.depth] at hdepth
    split at hdepth
    · cases hdepth
    · next hne =>
      have hopen : b.outer ≠ [] := fun hnil => hne (by rw [hnil]; rfl)
      refine ⟨h.leave hopen stop stopByte, ?_⟩
      obtain ⟨g, fs, houter⟩ := List.exists_cons_of_ne_nil hopen
      rw [houter] at hdepth
      rw [Builder.perform, Builder.leave, houter]
      exact Option.some.inj hdepth

/-- **Any number of calls**, as long as the root stays open. -/
theorem foldl_perform (h : b.Tracks t) {calls : List Call}
    (hroot : (calls.foldlM Call.depth b.outer.length).isSome) :
    (calls.foldl Builder.perform b).Tracks (calls.foldl NodeTable.perform t) := by
  induction calls generalizing b t with
  | nil => exact h
  | cons call calls ih =>
    rw [List.foldlM_cons] at hroot
    cases hdepth : call.depth b.outer.length with
    | none => simp [hdepth] at hroot
    | some depth =>
      obtain ⟨hnext, hlength⟩ := h.perform hdepth
      refine ih hnext ?_
      rw [hlength]
      simpa [hdepth] using hroot

end Tracks

/-- The rows of the finished tree are those of the open nodes, each closed in its row. -/
theorem rows_closeAll (stop stopByte : Nat) (f : Frame) (fs : List Frame)
    (h : Numbered (stackRows [] (f :: fs))) :
    (closeAll stop stopByte f fs).rows none =
      ((f :: fs).map (·.info.id)).foldl
        (fun rows id => rows.modify id (.mapInfo (.stopAt stop stopByte)))
        (stackRows [] (f :: fs)) := by
  have hid := NodeInfo.id_stopAt stop stopByte
  induction fs generalizing f with
  | nil =>
    rw [closeAll, List.map_singleton, List.foldl_cons, List.foldl_nil, stackRows_mapInfo h hid]
    simp [stackRows, Frame.rows, Frame.close, Tree.rows_node, NodeInfo.stopAt]
  | cons g fs ih =>
    have hclosed := stackRows_mapInfo h hid
    rw [stackRows_close] at hclosed
    have hnumbered : Numbered (stackRows [] (g.push (f.close stop stopByte) :: fs)) :=
      hclosed ▸ h.mapInfo hid _
    rw [closeAll, ih _ hnumbered, ← hclosed]
    rfl

theorem numbered_foldl_close (stop stopByte : Nat) (ids : List Nat) {rows : List NodeRow}
    (h : Numbered rows) :
    Numbered
      (ids.foldl (fun rows id => rows.modify id (.mapInfo (.stopAt stop stopByte))) rows) := by
  induction ids generalizing rows with
  | nil => exact h
  | cons id ids ih => exact ih (h.mapInfo (NodeInfo.id_stopAt stop stopByte) id)

/-- **The finished table** is the finished tree, row by row. -/
theorem Tracks.finish {b : Builder} {t : NodeTable} (h : b.Tracks t) (stop stopByte : Nat) :
    t.finish stop stopByte = (b.finish stop stopByte).root.rows none ∧
      Numbered (t.finish stop stopByte) := by
  refine ⟨?_, numbered_foldl_close stop stopByte _ h.numbered⟩
  rw [NodeTable.finish, h.opened_eq, h.rows_eq, Builder.finish,
    rows_closeAll stop stopByte _ _ h.numbered_stackRows]

end Builder

end SourceEditor

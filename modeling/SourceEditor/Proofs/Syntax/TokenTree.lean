import SourceEditor.Proofs.Syntax.Lossless
import SourceEditor.Proofs.Token.Coverage
import SourceEditor.Syntax.TokenTree
import Mathlib.Data.List.Forall2

/-!
# The shape of token trees

`Grouped source i v ts k` says what token trees look like: side by side, the trees `ts` are made of
the tokens `v`, which cover the source from the offset `i` to the offset `k`. A tree is a leaf that
carries one token, or a group (`IsGroup`) that starts with its opening bracket. A group is an error
exactly if it does not end with its closing bracket.

A tree in the making is a stack of open nodes. `Opened` says of each of them what `Grouped` says of
finished trees, where a group that is open has not met its closing bracket. Every token keeps that
up (`State.Tracks.add`), whichever groups it ends, and at the end of the text there is a finished
tree (`isRoot_parse`). That it is lossless follows (`parse_lossless`).
-/

namespace SourceEditor

variable {source : List Char}

/-! ## Tokens and their leaves -/

/-- A token stands in the source where it says. -/
structure Token.Placed (source : List Char) (t : Token) : Prop where
  stop_le : t.stop ≤ source.length
  slice_eq : Span.slice ⟨t.start, t.stop⟩ source = t.text

theorem Token.start_le_stop (t : Token) : t.start ≤ t.stop := Nat.le_add_right _ _

theorem Token.Placed.byteLength_take {t : Token} (h : t.Placed source) :
    byteLength (source.take t.start) + byteLength t.text = byteLength (source.take t.stop) := by
  rw [← h.slice_eq]
  exact byteLength_take_add_slice t.start_le_stop

/-- The first of the tokens that lie end to end from an offset of the source on. -/
theorem Tiles.placed {i : Nat} {t : Token} {ts : List Token}
    (h : Tiles i (source.drop i) (t :: ts)) :
    t.start = i ∧ t.Placed source ∧ Tiles t.stop (source.drop t.stop) ts := by
  generalize hrest : source.drop i = text at h
  cases h with
  | @cons _ _ rest _ start nonempty tail =>
    subst start
    have hpos := List.length_pos_iff.mpr nonempty
    have hlength := congrArg List.length hrest
    rw [List.length_drop, List.length_append] at hlength
    have hdrop : source.drop t.stop = rest := by
      rw [Token.stop, ← List.drop_drop, hrest, List.drop_left]
    refine ⟨rfl, ⟨?_, ?_⟩, hdrop ▸ tail⟩
    · rw [Token.stop]
      omega
    · rw [Span.slice, hrest, Token.stop, Nat.add_sub_cancel_left, List.take_left]

/-- A node has the kind, the range and the text of a token. -/
structure NodeInfo.Carries (source : List Char) (t : Token) (n : NodeInfo) : Prop where
  kind_eq : n.kind = t.kind.name
  range_eq : n.range = ⟨t.start, t.stop⟩
  text_eq : n.text source = t.text

/-- A tree is the leaf of a token. -/
def Tree.IsLeafOf (source : List Char) (t : Token) (tree : Tree NodeInfo) : Prop :=
  tree.children = [] ∧ tree.label.Carries source t

/-- Tokens that lie end to end are told apart by where they start. -/
theorem Tiles.eq_of_start_eq {i : Nat} {text : List Char} {ts : List Token} (h : Tiles i text ts)
    {t u : Token} (ht : t ∈ ts) (hu : u ∈ ts) (hstart : t.start = u.start) : t = u := by
  induction h with
  | nil => simp at ht
  | @cons i first rest ts _ nonempty tail ih =>
    have hpos := List.length_pos_iff.mpr nonempty
    have hafter : ∀ v ∈ ts, first.start < v.start := by
      intro v hv
      have := tail.offset_le v hv
      rw [Token.stop] at this
      omega
    rcases List.mem_cons.mp ht with rfl | ht' <;> rcases List.mem_cons.mp hu with rfl | hu'
    · rfl
    · have := hafter u hu'
      omega
    · have := hafter t ht'
      omega
    · exact ih ht' hu'

namespace TokenTree

/-! ## Finished trees -/

/-- A group made of tokens: it starts with its opening bracket, and is an error exactly if it does
not end with its closing bracket. -/
structure IsGroup (source : List Char) (g : Group) (v : List Token) (n : NodeInfo)
    (children : List (Tree NodeInfo)) : Prop where
  kind_eq : n.kind = g.kind
  opener : ∃ first ∈ children.head?, ∃ t ∈ v,
    first.IsLeafOf source t ∧ Group.openedBy? t = some g
  closed : n.error = false → ∃ last ∈ children.getLast?, ∃ t ∈ v,
    last.IsLeafOf source t ∧ Group.closedBy? t = some g
  unclosed : n.error = true → ∃ last ∈ children.getLast?, last.children ≠ [] ∨
    ∃ t ∈ v, last.IsLeafOf source t ∧ Group.closedBy? t ≠ some g

theorem IsGroup.ne_nil {g : Group} {v : List Token} {n : NodeInfo}
    {children : List (Tree NodeInfo)} (h : IsGroup source g v n children) : children ≠ [] := by
  obtain ⟨first, hfirst, -⟩ := h.opener
  rintro rfl
  simp at hfirst

theorem IsGroup.mono {g : Group} {v w : List Token} {n : NodeInfo}
    {children : List (Tree NodeInfo)} (h : IsGroup source g v n children) (hsub : v ⊆ w) :
    IsGroup source g w n children where
  kind_eq := h.kind_eq
  opener := by
    obtain ⟨first, hfirst, t, ht, hleaf⟩ := h.opener
    exact ⟨first, hfirst, t, hsub ht, hleaf⟩
  closed herror := by
    obtain ⟨last, hlast, t, ht, hleaf⟩ := h.closed herror
    exact ⟨last, hlast, t, hsub ht, hleaf⟩
  unclosed herror := by
    obtain ⟨last, hlast, hnode | ⟨t, ht, hleaf⟩⟩ := h.unclosed herror
    · exact ⟨last, hlast, Or.inl hnode⟩
    · exact ⟨last, hlast, Or.inr ⟨t, hsub ht, hleaf⟩⟩

/-- Side by side, the trees are made of tokens that cover the source from one offset to another. -/
inductive Grouped (source : List Char) : Nat → List Token → List (Tree NodeInfo) → Nat → Prop
  | nil (i : Nat) : Grouped source i [] [] i
  | leaf {i k : Nat} {t : Token} {n : NodeInfo} {v : List Token} {ts : List (Tree NodeInfo)}
      (carries : n.Carries source t) (located : n.Located source) (start : t.start = i)
      (tail : Grouped source t.stop v ts k) : Grouped source i (t :: v) (.node n [] :: ts) k
  | group {i j k : Nat} {g : Group} {n : NodeInfo} {v w : List Token}
      {children ts : List (Tree NodeInfo)} (isGroup : IsGroup source g v n children)
      (located : n.Located source) (range : n.range = ⟨i, j⟩)
      (below : Grouped source i v children j) (tail : Grouped source j w ts k) :
      Grouped source i (v ++ w) (.node n children :: ts) k

namespace Grouped

variable {i j k : Nat} {v w : List Token} {ts us : List (Tree NodeInfo)}

theorem append (h : Grouped source i v ts j) (h' : Grouped source j w us k) :
    Grouped source i (v ++ w) (ts ++ us) k := by
  induction h with
  | nil => exact h'
  | leaf carries located start _ ih => exact .leaf carries located start (ih h')
  | group isGroup located range below _ _ ih =>
    rw [List.append_assoc]
    exact .group isGroup located range below (ih h')

theorem lossless (h : Grouped source i v ts k) : Lossless source i ts k := by
  induction h with
  | nil i => exact .nil i
  | leaf carries located start _ ih =>
    refine .leaf located ?_ ?_
    · rw [carries.range_eq]
      exact start
    · rw [carries.range_eq]
      exact ih
  | group isGroup located range _ _ ihBelow ih =>
    refine .node located ?_ isGroup.ne_nil ?_ ?_
    · rw [range]
    · rw [range]
      exact ihBelow
    · rw [range]
      exact ih

/-- The leaves are those of the tokens, in order. -/
theorem forall₂_leaves (h : Grouped source i v ts k) :
    List.Forall₂ (fun n t => n.Carries source t ∧ n.Located source) (ts.flatMap Tree.leaves) v := by
  induction h with
  | nil => exact .nil
  | leaf carries located _ _ ih =>
    rw [List.flatMap_cons, Tree.leaves_node_nil]
    exact .cons ⟨carries, located⟩ ih
  | group isGroup _ _ _ _ ihBelow ih =>
    rw [List.flatMap_cons, Tree.leaves_node_of_ne_nil _ isGroup.ne_nil]
    exact List.rel_append ihBelow ih

theorem eq_nil (h : Grouped source i [] ts k) : ts = [] := by
  generalize hv : ([] : List Token) = v at h
  cases h with
  | nil => rfl
  | leaf => cases hv
  | group isGroup =>
    obtain ⟨first, -, t, ht, -⟩ := isGroup.opener
    rw [(List.append_eq_nil_iff.mp hv.symm).1] at ht
    simp at ht

/-- Every node is the leaf of a token or a group. -/
theorem isLeafOf_or_isGroup (h : Grouped source i v ts k) :
    ∀ t ∈ ts.flatMap Tree.subtrees, (∃ u ∈ v, t.IsLeafOf source u) ∨
      ∃ g, IsGroup source g v t.label t.children := by
  have mono {v w : List Token} (hsub : v ⊆ w) {t : Tree NodeInfo}
      (ht : (∃ u ∈ v, t.IsLeafOf source u) ∨ ∃ g, IsGroup source g v t.label t.children) :
      (∃ u ∈ w, t.IsLeafOf source u) ∨ ∃ g, IsGroup source g w t.label t.children := by
    rcases ht with ⟨u, hu, hleaf⟩ | ⟨g, hgroup⟩
    · exact Or.inl ⟨u, hsub hu, hleaf⟩
    · exact Or.inr ⟨g, hgroup.mono hsub⟩
  induction h with
  | nil => simp
  | @leaf i k u n v ts carries _ _ _ ih =>
    refine Tree.forall_subtrees_cons.mpr ⟨?_, by simp, fun t ht => ?_⟩
    · exact Or.inl ⟨u, List.mem_cons_self, rfl, carries⟩
    · exact mono (List.subset_cons_self u v) (ih t ht)
  | @group i j k g n v w children ts isGroup _ _ _ _ ihBelow ih =>
    refine Tree.forall_subtrees_cons.mpr ⟨?_, fun t ht => ?_, fun t ht => ?_⟩
    · exact Or.inr ⟨g, isGroup.mono (List.subset_append_left v w)⟩
    · exact mono (List.subset_append_left v w) (ihBelow t ht)
    · exact mono (List.subset_append_right v w) (ih t ht)

end Grouped

theorem carries_leaf {t : Token} (ht : t.Placed source) (shape : NodeShape)
    (hkind : shape.kind = t.kind.name) (id : Nat) (bytes : Span) :
    (shape.toInfo id ⟨t.start, t.stop⟩ bytes).Carries source t :=
  ⟨hkind, rfl, ht.slice_eq⟩

/-- The leaf that is made for a token. -/
theorem grouped_leaf {t : Token} (ht : t.Placed source) (shape : NodeShape)
    (hkind : shape.kind = t.kind.name) (id : Nat) {byte : Nat}
    (hbyte : byte = byteLength (source.take t.start)) :
    Grouped source t.start [t]
      [.node (shape.toInfo id ⟨t.start, t.stop⟩ ⟨byte, byte + byteLength t.text⟩) []] t.stop := by
  refine .leaf (carries_leaf ht shape hkind id _) ⟨t.start_le_stop, ht.stop_le, hbyte, ?_⟩ rfl
    (.nil _)
  change byte + byteLength t.text = byteLength (source.take t.stop)
  rw [hbyte, ht.byteLength_take]

/-! ## Open nodes -/

/-- An open node whose children so far are made of tokens. -/
structure Holds (source : List Char) (i : Nat) (v : List Token) (k : Nat) (f : Frame) : Prop where
  start_eq : f.info.range.start = i
  start_byte : f.info.bytes.start = byteLength (source.take i)
  grouped : Grouped source i v f.children.reverse k

/-- An open node is a group that has met its opening bracket and not its closing bracket. -/
structure IsOpen (source : List Char) (g : Group) (v : List Token) (f : Frame) : Prop where
  kind_eq : f.info.kind = g.kind
  error_eq : f.info.error = false
  opener : ∃ first ∈ f.children.getLast?, ∃ t ∈ v,
    first.IsLeafOf source t ∧ Group.openedBy? t = some g
  unclosed : ∃ last ∈ f.children.head?, last.children ≠ [] ∨
    ∃ t ∈ v, last.IsLeafOf source t ∧ Group.closedBy? t ≠ some g

/-- The open nodes, innermost first, are groups down to the root, and are made of tokens that cover
the source up to an offset. -/
inductive Opened (source : List Char) : List Frame → List Group → List Token → Nat → Prop
  | root {f : Frame} {v : List Token} {k : Nat} (holds : Holds source 0 v k f)
      (kind : f.info.kind = rootShape.kind) : Opened source [f] [] v k
  | group {f : Frame} {fs : List Frame} {g : Group} {gs : List Group} {v w : List Token} {i k : Nat}
      (holds : Holds source i w k f) (isOpen : IsOpen source g w f)
      (outer : Opened source fs gs v i) : Opened source (f :: fs) (g :: gs) (v ++ w) k

section

variable {f : Frame} {fs : List Frame} {g : Group} {gs : List Group} {v w : List Token}
  {i j k : Nat} {t : Tree NodeInfo}

theorem Holds.push (h : Holds source i v j f) (ht : Grouped source j w [t] k) :
    Holds source i (v ++ w) k (f.push t) where
  start_eq := h.start_eq
  start_byte := h.start_byte
  grouped := by
    rw [Frame.push, List.reverse_cons]
    exact h.grouped.append ht

/-- The range of an open node that ends where its children end. -/
theorem Holds.located_close (h : Holds source i v k f) (hk : k ≤ source.length) :
    (f.close k (byteLength (source.take k))).label.Located source ∧
      (f.close k (byteLength (source.take k))).label.range = ⟨i, k⟩ := by
  have hstart := h.start_eq
  refine ⟨⟨?_, hk, ?_, rfl⟩, ?_⟩
  · exact hstart ▸ h.grouped.lossless.le
  · exact hstart ▸ h.start_byte
  · simp only [Frame.close, Tree.label, hstart]

/-- The finished tree of an open node that has become a group. -/
theorem Holds.grouped_close (h : Holds source i v k f) (hk : k ≤ source.length)
    (isGroup : IsGroup source g v f.info f.children.reverse) :
    Grouped source i v [f.close k (byteLength (source.take k))] k := by
  obtain ⟨hlocated, hrange⟩ := h.located_close hk
  have hgroup : IsGroup source g v (f.close k (byteLength (source.take k))).label
      f.children.reverse :=
    ⟨isGroup.kind_eq, isGroup.opener, isGroup.closed, isGroup.unclosed⟩
  have hnode := Grouped.group hgroup hlocated hrange h.grouped (.nil k)
  rwa [List.append_nil] at hnode

namespace IsOpen

theorem opener_push (h : IsOpen source g v f) (t : Tree NodeInfo) (w : List Token) :
    ∃ first ∈ (f.push t).children.getLast?, ∃ u ∈ v ++ w,
      first.IsLeafOf source u ∧ Group.openedBy? u = some g := by
  obtain ⟨first, hfirst, u, hu, hleaf⟩ := h.opener
  refine ⟨first, ?_, u, List.mem_append_left w hu, hleaf⟩
  rw [Frame.push, List.getLast?_cons, Option.mem_def.mp hfirst]
  rfl

theorem push (h : IsOpen source g v f) (hstays : t.children ≠ [] ∨
    ∃ u ∈ w, t.IsLeafOf source u ∧ Group.closedBy? u ≠ some g) :
    IsOpen source g (v ++ w) (f.push t) where
  kind_eq := h.kind_eq
  error_eq := h.error_eq
  opener := h.opener_push t w
  unclosed := by
    refine ⟨t, rfl, ?_⟩
    rcases hstays with hnode | ⟨u, hu, hleaf⟩
    · exact Or.inl hnode
    · exact Or.inr ⟨u, List.mem_append_right v hu, hleaf⟩

theorem children_ne_nil (h : IsOpen source g v f) : f.children ≠ [] := by
  obtain ⟨last, hlast, -⟩ := h.unclosed
  intro hnil
  simp [hnil] at hlast

/-- A group that ends before its closing bracket. -/
theorem isGroup_error (h : IsOpen source g v f) :
    IsGroup source g v { f.info with error := true } f.children.reverse where
  kind_eq := h.kind_eq
  opener := by simpa only [List.head?_reverse] using h.opener
  closed := nofun
  unclosed _ := by simpa only [List.getLast?_reverse] using h.unclosed

/-- A group that ends with its closing bracket. -/
theorem isGroup_closed (h : IsOpen source g v f) {u : Token} (ht : t.IsLeafOf source u)
    (hcloses : Group.closedBy? u = some g) :
    IsGroup source g (v ++ [u]) (f.push t).info (f.push t).children.reverse where
  kind_eq := h.kind_eq
  opener := by simpa only [List.head?_reverse] using h.opener_push t [u]
  closed _ := ⟨t, by simp [Frame.push], u, by simp, ht, hcloses⟩
  unclosed herror := by
    rw [Frame.push, h.error_eq] at herror
    cases herror

end IsOpen

namespace Opened

/-- A tree that is not the closing bracket of the innermost group is added to it. -/
theorem push (h : Opened source (f :: fs) gs v j) (ht : Grouped source j w [t] k)
    (hstays : ∀ g ∈ gs.head?, t.children ≠ [] ∨
      ∃ u ∈ w, t.IsLeafOf source u ∧ Group.closedBy? u ≠ some g) :
    Opened source (f.push t :: fs) gs (v ++ w) k := by
  cases h with
  | root holds kind => exact .root (holds.push ht) kind
  | group holds isOpen outer =>
    rw [List.append_assoc]
    exact .group (holds.push ht) (isOpen.push (hstays _ rfl)) outer

/-- A group is open inside another open node. -/
theorem exists_outer (h : Opened source (f :: fs) (g :: gs) v k) :
    ∃ f' fs' v₀ v₁ i, fs = f' :: fs' ∧ v = v₀ ++ v₁ ∧ Opened source (f' :: fs') gs v₀ i ∧
      Holds source i v₁ k f ∧ IsOpen source g v₁ f := by
  cases h with
  | group holds isOpen outer =>
    cases fs with
    | nil => nomatch outer
    | cons f' fs' => exact ⟨f', fs', _, _, _, rfl, rfl, outer, holds, isOpen⟩

/-- Without groups only the root is open. -/
theorem of_nil (h : Opened source (f :: fs) [] v k) :
    fs = [] ∧ Holds source 0 v k f ∧ f.info.kind = rootShape.kind := by
  cases h with
  | root holds kind => exact ⟨rfl, holds, kind⟩

end Opened

end

/-! ## Steps of the builder -/

/-- The open nodes of a builder. -/
def frames (b : Builder) : List Frame := b.inner :: b.outer

theorem frames_leave {b : Builder} {f : Frame} {fs : List Frame} (h : b.outer = f :: fs)
    (stop stopByte : Nat) :
    frames (b.leave stop stopByte) = f.push (b.inner.close stop stopByte) :: fs := by
  rw [Builder.leave, h, frames]

theorem closedBy?_of_openedBy? {t : Token} {g : Group} (h : Group.openedBy? t = some g) :
    Group.closedBy? t = none := by
  unfold Group.openedBy? at h
  unfold Group.closedBy?
  split at h <;> simp_all

namespace Opened

variable {b : Builder} {g : Group} {gs : List Group} {v : List Token} {j k : Nat}

/-- The innermost group ends without its closing bracket. -/
theorem leave_markError (h : Opened source (frames b) (g :: gs) v k) (hk : k ≤ source.length) :
    Opened source (frames (b.markError.leave k (byteLength (source.take k)))) gs v k := by
  obtain ⟨f, fs, v₀, v₁, i, houter, rfl, hopened, holds, isOpen⟩ := h.exists_outer
  have hmarked : Holds source i v₁ k b.markError.inner :=
    ⟨holds.start_eq, holds.start_byte, holds.grouped⟩
  rw [frames_leave (b := b.markError) houter]
  refine hopened.push (hmarked.grouped_close hk isOpen.isGroup_error) fun _ _ => Or.inl ?_
  simpa [Frame.close, Tree.children, Builder.markError] using isOpen.children_ne_nil

/-- Groups end up to the one that is looked for. -/
theorem closeInside (h : Opened source (frames b) gs v k) (hk : k ≤ source.length)
    (hmem : g ∈ gs) :
    Opened source (frames (closeInside g k (byteLength (source.take k)) gs b).1)
      (g :: (TokenTree.closeInside g k (byteLength (source.take k)) gs b).2) v k := by
  induction gs generalizing b with
  | nil => simp at hmem
  | cons g' gs ih =>
    rw [TokenTree.closeInside]
    split
    · next heq => exact heq ▸ h
    · next hne =>
      have hmem' : g ∈ gs := (List.mem_cons.mp hmem).resolve_left (Ne.symm hne)
      exact ih (h.leave_markError hk) hmem'

/-- All groups end. -/
theorem leaveAll (h : Opened source (frames b) gs v k) (hk : k ≤ source.length) :
    Opened source
      (frames (gs.foldl (fun b _ => b.markError.leave k (byteLength (source.take k))) b)) []
      v k := by
  induction gs generalizing b with
  | nil => exact h
  | cons g gs ih => exact ih (h.leave_markError hk)

section Token

variable {t : Token} {byte : Nat}

/-- A token that does not end the innermost group is added to it. -/
theorem leaf (h : Opened source (frames b) gs v t.start) (ht : t.Placed source)
    (hbyte : byte = byteLength (source.take t.start)) (shape : NodeShape)
    (hkind : shape.kind = t.kind.name) (hstays : ∀ g ∈ gs.head?, Group.closedBy? t ≠ some g) :
    Opened source
      (frames (b.leaf shape ⟨t.start, t.stop⟩ ⟨byte, byte + byteLength t.text⟩)) gs
      (v ++ [t]) t.stop := by
  refine h.push (grouped_leaf ht shape hkind b.count hbyte) fun g hg => Or.inr ?_
  exact ⟨t, List.mem_singleton_self t, ⟨rfl, carries_leaf ht shape hkind _ _⟩, hstays g hg⟩

/-- An opening bracket starts a group. -/
theorem enter_leaf (h : Opened source (frames b) gs v t.start) (ht : t.Placed source)
    (hbyte : byte = byteLength (source.take t.start)) (hopens : Group.openedBy? t = some g) :
    Opened source
      (frames ((b.enter { kind := g.kind, named := true } t.start byte).leaf { kind := t.kind.name }
        ⟨t.start, t.stop⟩ ⟨byte, byte + byteLength t.text⟩)) (g :: gs) (v ++ [t]) t.stop := by
  have hleaf : Tree.IsLeafOf source t (.node (NodeShape.toInfo { kind := t.kind.name } (b.count + 1)
      ⟨t.start, t.stop⟩ ⟨byte, byte + byteLength t.text⟩) []) :=
    ⟨rfl, carries_leaf ht _ rfl _ _⟩
  refine .group ⟨rfl, hbyte, ?_⟩ ⟨rfl, rfl, ?_, ?_⟩ h
  · exact grouped_leaf ht _ rfl _ hbyte
  · exact ⟨_, rfl, t, List.mem_singleton_self t, hleaf, hopens⟩
  · refine ⟨_, rfl, Or.inr ⟨t, List.mem_singleton_self t, hleaf, ?_⟩⟩
    rw [closedBy?_of_openedBy? hopens]
    exact nofun

/-- The innermost group ends with its closing bracket. -/
theorem leave_leaf (h : Opened source (frames b) (g :: gs) v t.start) (ht : t.Placed source)
    (hbyte : byte = byteLength (source.take t.start)) (hcloses : Group.closedBy? t = some g) :
    Opened source
      (frames ((b.leaf { kind := t.kind.name } ⟨t.start, t.stop⟩
        ⟨byte, byte + byteLength t.text⟩).leave t.stop (byte + byteLength t.text))) gs
      (v ++ [t]) t.stop := by
  obtain ⟨f, fs, v₀, v₁, i, houter, rfl, hopened, holds, isOpen⟩ := h.exists_outer
  have hstop : byte + byteLength t.text = byteLength (source.take t.stop) := by
    rw [hbyte, ht.byteLength_take]
  have hleaf := grouped_leaf ht { kind := t.kind.name } rfl b.count hbyte
  have hcarries := carries_leaf ht { kind := t.kind.name } rfl b.count
    ⟨byte, byte + byteLength t.text⟩
  have hclosed := (holds.push hleaf).grouped_close ht.stop_le
    (isOpen.isGroup_closed ⟨rfl, hcarries⟩ hcloses)
  rw [← hstop] at hclosed
  rw [frames_leave (b := b.leaf _ _ _) houter, List.append_assoc]
  refine hopened.push hclosed fun _ _ => Or.inl ?_
  simp [Frame.close, Tree.children, Builder.leaf, Frame.push]

end Token

end Opened

/-! ## The parser -/

/-- The root of a tree that is made of tokens, which cover the whole source. -/
structure IsRoot (source : List Char) (v : List Token) (root : Tree NodeInfo) : Prop where
  kind_eq : root.label.kind = rootShape.kind
  located : root.label.Located source
  range_eq : root.label.range = ⟨0, source.length⟩
  grouped : Grouped source 0 v root.children source.length

/-- A tree in the making, after some tokens. -/
structure State.Tracks (source : List Char) (s : State) (v : List Token) : Prop where
  stop_le : s.stop ≤ source.length
  stopByte_eq : s.stopByte = byteLength (source.take s.stop)
  opened : Opened source (frames s.builder) s.groups v s.stop

namespace State.Tracks

variable {s : State} {v : List Token} {t : Token}

theorem start (source : List Char) : (State.start source).Tracks source [] where
  stop_le := Nat.zero_le _
  stopByte_eq := rfl
  opened := .root ⟨rfl, rfl, .nil 0⟩ rfl

/-- **Every token** goes into the tree, after the groups have ended that it ends. -/
theorem add (h : s.Tracks source v) (ht : t.Placed source) (hstart : t.start = s.stop) :
    (s.add t).Tracks source (v ++ [t]) := by
  have hopened : Opened source (frames s.builder) s.groups v t.start := hstart ▸ h.opened
  have hbyte : s.stopByte = byteLength (source.take t.start) := by rw [hstart, h.stopByte_eq]
  have hstop : s.stopByte + byteLength t.text = byteLength (source.take t.stop) := by
    rw [hbyte, ht.byteLength_take]
  unfold State.add
  split
  · next g hopens => exact ⟨ht.stop_le, hstop, hopened.enter_leaf ht hbyte hopens⟩
  · split
    · next g hcloses =>
      split
      · next hmem =>
        refine ⟨ht.stop_le, hstop, ?_⟩
        have hinside := hopened.closeInside (hstart ▸ h.stop_le) hmem
        rw [← hbyte] at hinside
        exact hinside.leave_leaf ht hbyte hcloses
      · next hmem =>
        refine ⟨ht.stop_le, hstop, hopened.leaf ht hbyte _ rfl fun g' hg' heq => hmem ?_⟩
        -- a bracket that closes nothing does not close the innermost group
        obtain rfl : g = g' := Option.some.inj (hcloses.symm.trans heq)
        exact List.mem_of_mem_head? hg'
    · next hcloses =>
      refine ⟨ht.stop_le, hstop, hopened.leaf ht hbyte _ rfl fun g' _ => ?_⟩
      rw [hcloses]
      exact nofun

theorem stop_add (s : State) (t : Token) : (s.add t).stop = t.stop := by
  unfold State.add
  split
  · rfl
  · split
    · split <;> rfl
    · rfl

/-- The tokens from the place that is reached to the end of the source. -/
theorem foldl_add (h : s.Tracks source v) {ts : List Token}
    (hts : Tiles s.stop (source.drop s.stop) ts) :
    (ts.foldl State.add s).Tracks source (v ++ ts) ∧
      (ts.foldl State.add s).stop = source.length := by
  induction ts generalizing s v with
  | nil =>
    generalize hrest : source.drop s.stop = rest at hts
    cases hts
    rw [List.append_nil]
    exact ⟨h, Nat.le_antisymm h.stop_le (List.drop_eq_nil_iff.mp hrest)⟩
  | cons t ts ih =>
    obtain ⟨hstart, ht, htail⟩ := hts.placed
    rw [← stop_add s t] at htail
    rw [← List.singleton_append, ← List.append_assoc]
    exact ih (h.add ht hstart) htail

/-- At the end of the source every group ends, and the root is made of all tokens. -/
theorem finish (h : s.Tracks source v) (hstop : s.stop = source.length) :
    IsRoot source v s.finish.root := by
  have hclosed := h.opened.leaveAll h.stop_le
  rw [← h.stopByte_eq] at hclosed
  rw [State.finish]
  -- the builder when all groups have ended
  generalize s.groups.foldl (fun b _ => b.markError.leave s.stop s.stopByte) s.builder = b at *
  obtain ⟨hnil, holds, hkind⟩ := hclosed.of_nil
  have hroot : (b.finish s.stop s.stopByte).root = b.inner.close s.stop s.stopByte := by
    rw [Builder.finish, hnil]
    rfl
  obtain ⟨hlocated, hrange⟩ := holds.located_close h.stop_le
  rw [← h.stopByte_eq] at hlocated hrange
  rw [hroot]
  exact ⟨hkind, hlocated, hstop ▸ hrange, hstop ▸ holds.grouped⟩

end State.Tracks

/-- **The tree of a source** is made of its tokens. -/
theorem isRoot_parse (source : List Char) :
    IsRoot source (tokens Rules.kotlin source) (parse source).root := by
  obtain ⟨htracks, hstop⟩ := (State.Tracks.start source).foldl_add
    (tiles_tokens Rules.productive_kotlin source)
  exact htracks.finish hstop

namespace IsRoot

variable {v : List Token} {root : Tree NodeInfo}

theorem lossless (h : IsRoot source v root) : Lossless source 0 [root] source.length := by
  obtain ⟨n, children⟩ := root
  exact Lossless.wrap h.located h.range_eq h.grouped.lossless

/-- The leaves are those of the tokens. -/
theorem forall₂_leaves (h : IsRoot source v root) (hne : v ≠ []) :
    List.Forall₂ (fun n t => n.Carries source t ∧ n.Located source) root.leaves v := by
  obtain ⟨n, children⟩ := root
  have hleaves : List.Forall₂ (fun n t => n.Carries source t ∧ n.Located source)
      (children.flatMap Tree.leaves) v := h.grouped.forall₂_leaves
  have hchildren : children ≠ [] := by
    rintro rfl
    cases hleaves
    exact hne rfl
  rwa [Tree.leaves_node_of_ne_nil n hchildren]

end IsRoot

/-! ## Losslessness -/

section Source

variable (b : Builder)

theorem source_leave (stop stopByte : Nat) : (b.leave stop stopByte).source = b.source := by
  unfold Builder.leave
  split <;> rfl

theorem source_closeInside (g : Group) (stop stopByte : Nat) (gs : List Group) :
    (closeInside g stop stopByte gs b).1.source = b.source := by
  induction gs generalizing b with
  | nil => rfl
  | cons g' gs ih =>
    rw [closeInside]
    split
    · rfl
    · rw [ih, source_leave]
      rfl

theorem source_add (s : State) (t : Token) : (s.add t).builder.source = s.builder.source := by
  unfold State.add
  split
  · rfl
  · split
    · split
      · exact (source_leave _ _ _).trans (source_closeInside _ _ _ _ _)
      · rfl
    · rfl

theorem source_foldl_add (ts : List Token) (s : State) :
    (ts.foldl State.add s).builder.source = s.builder.source := by
  induction ts generalizing s with
  | nil => rfl
  | cons t ts ih => exact (ih (s.add t)).trans (source_add s t)

theorem source_finish (s : State) : s.finish.source = s.builder.source := by
  unfold State.finish
  generalize s.builder = b
  induction s.groups generalizing b with
  | nil => rfl
  | cons g gs ih => exact (ih _).trans (source_leave _ _ _)

theorem source_parse (source : List Char) : (parse source).source = source :=
  (source_finish _).trans (source_foldl_add _ (State.start source))

end Source

/-- A lossless tree of a source and its tokens. -/
structure IsLossless (source : List Char) (ts : List Token) (tree : SyntaxTree) : Prop where
  source_eq : tree.source = source
  /-- The root of an empty source is alone. -/
  alone : source = [] → tree.root.children = []
  /-- The childless nodes are the tokens, in order, and the bytes of each are those of its token. -/
  leaves_tokens : source ≠ [] → List.Forall₂
    (fun n t => n.kind = t.kind.name ∧ n.range = ⟨t.start, t.stop⟩ ∧
      n.bytes.slice (utf8 source) = utf8 t.text) tree.root.leaves ts
  leafTexts_flatten : tree.leafTexts.flatten = source
  root_range : tree.root.label.range = ⟨0, source.length⟩
  /-- The children of every node lie end to end and fill it. -/
  filled : ∀ t ∈ tree.root.subtrees, t.Filled
  /-- The bytes of every node are those of its characters. -/
  located : ∀ t ∈ tree.root.subtrees, t.label.Located source ∧
    t.label.bytes.slice (utf8 source) = utf8 (t.label.text source)

/-- **Token trees are lossless.** -/
theorem parse_lossless (source : List Char) :
    IsLossless source (tokens Rules.kotlin source) (parse source) := by
  have hroot := isRoot_parse source
  have hlossless := hroot.lossless
  have htiles := tiles_tokens Rules.productive_kotlin source
  refine ⟨source_parse source, fun hnil => ?_, fun hne => ?_, ?_, hroot.range_eq, ?_, ?_⟩
  · subst hnil
    have htokens : tokens Rules.kotlin [] = [] :=
      List.length_eq_zero_iff.mp (Nat.le_zero.mp htiles.length_le)
    have hgrouped := hroot.grouped
    rw [htokens] at hgrouped
    exact hgrouped.eq_nil
  · have htokens : tokens Rules.kotlin source ≠ [] := by
      intro hnil
      rw [hnil] at htiles
      exact hne htiles.flatMap_text.symm
    refine (hroot.forall₂_leaves htokens).imp fun n t ⟨hcarries, hlocated⟩ => ?_
    exact ⟨hcarries.kind_eq, hcarries.range_eq, hcarries.text_eq ▸ hlocated.slice_bytes⟩
  · rw [SyntaxTree.leafTexts, source_parse]
    simpa [Span.slice_zero] using hlossless.flatten_leaves
  · simpa using hlossless.filled
  · intro t ht
    have hlocated := hlossless.located t (by simpa using ht)
    exact ⟨hlocated, hlocated.slice_bytes⟩

end TokenTree

end SourceEditor

import SourceEditor.Proofs.Syntax.Lossless
import SourceEditor.Syntax.RawTree

/-!
# The conversion of raw trees

A raw tree fits a source (`RawTree.WellFormed`) if its nodes start and stop between characters and
the children of each node lie in order inside it. `Converts source i raws trees k` says how the
nodes of such trees and of the syntax tree correspond: each raw node is a node with the same
outline, and in between are gaps that cover what the raw trees leave out, from the offset `i` to the
offset `k`.

The builder makes such trees (`addChildren_converts`), and they lose neither the source nor the raw
tree (`toSyntaxTree_lossless`).
-/

namespace SourceEditor

variable {source : List Char}

/-! ## Adding to a builder -/

/-- A builder that has become another one by adding trees to the innermost open node. -/
structure Builder.Extends (b b' : Builder) (ts : List (Tree NodeInfo)) : Prop where
  source_eq : b'.source = b.source
  outer_eq : b'.outer = b.outer
  info_eq : b'.inner.info = b.inner.info
  children_eq : b'.inner.children = ts.reverse ++ b.inner.children

namespace Builder.Extends

variable {b b' b'' : Builder} {ts us : List (Tree NodeInfo)}

theorem refl (b : Builder) : b.Extends b [] := ⟨rfl, rfl, rfl, rfl⟩

theorem trans (h : b.Extends b' ts) (h' : b'.Extends b'' us) : b.Extends b'' (ts ++ us) where
  source_eq := h'.source_eq.trans h.source_eq
  outer_eq := h'.outer_eq.trans h.outer_eq
  info_eq := h'.info_eq.trans h.info_eq
  children_eq := by rw [h'.children_eq, h.children_eq, List.reverse_append, List.append_assoc]

theorem leaf (b : Builder) (shape : NodeShape) (range bytes : Span) :
    b.Extends (b.leaf shape range bytes) [.node (shape.toInfo b.count range bytes) []] :=
  ⟨rfl, rfl, rfl, rfl⟩

/-- A node that is opened, filled and closed. -/
theorem node {shape : NodeShape} {start startByte : Nat}
    (h : (b.enter shape start startByte).Extends b' ts) (stop stopByte : Nat) :
    b.Extends (b'.leave stop stopByte)
      [.node (shape.toInfo b.count ⟨start, stop⟩ ⟨startByte, stopByte⟩) ts] := by
  have houter : b'.outer = b.inner :: b.outer := h.outer_eq
  have hleave : b'.leave stop stopByte =
      { b' with inner := b.inner.push (b'.inner.close stop stopByte), outer := b.outer } := by
    rw [leave, houter]
  have hclose : b'.inner.close stop stopByte =
      .node (shape.toInfo b.count ⟨start, stop⟩ ⟨startByte, stopByte⟩) ts := by
    rw [Frame.close, h.info_eq, h.children_eq, enter, List.append_nil, List.reverse_reverse]
    rfl
  rw [hleave, hclose]
  exact ⟨h.source_eq, rfl, rfl, rfl⟩

theorem finish {shape : NodeShape} (h : (start source shape).Extends b ts) (stop stopByte : Nat) :
    b.finish stop stopByte =
      ⟨source, .node (shape.toInfo 0 ⟨0, stop⟩ ⟨0, stopByte⟩) ts⟩ := by
  have hsource : b.source = source := h.source_eq
  have houter : b.outer = [] := h.outer_eq
  rw [Builder.finish, hsource, houter, closeAll, Frame.close, h.info_eq, h.children_eq, start,
    List.append_nil, List.reverse_reverse]
  rfl

end Builder.Extends

/-! ## Raw trees that fit a source -/

/-- A byte offset at which a character starts, or the source ends. -/
def IsBoundary (source : List Char) (byte : Nat) : Prop :=
  ∃ i ≤ source.length, byte = byteLength (source.take i)

instance (source : List Char) (byte : Nat) : Decidable (IsBoundary source byte) :=
  inferInstanceAs (Decidable (∃ i ≤ source.length, byte = byteLength (source.take i)))

/-- Whether a kind is one that the leaves for uncovered source have. -/
def isGapKind (kind : String) : Bool := kind == whitespaceKind || kind == textKind

namespace RawTree

/-- The trees lie between two bytes, in order and without overlap. -/
def InOrder (start stop : Nat) : List RawTree → Prop
  | [] => start ≤ stop
  | t :: ts => start ≤ t.label.bytes.start ∧ t.label.bytes.start ≤ t.label.bytes.stop ∧
      InOrder t.label.bytes.stop stop ts

/-- A node below the root that fits the source and its children. -/
structure Fits (source : List Char) (t : RawTree) : Prop where
  start_boundary : IsBoundary source t.label.bytes.start
  stop_boundary : IsBoundary source t.label.bytes.stop
  inOrder : InOrder t.label.bytes.start t.label.bytes.stop t.children
  kind_eq : isGapKind t.label.kind = false

/-- A raw tree that fits the source. What it says about the range of the root is of no interest. -/
structure WellFormed (source : List Char) (raw : RawTree) : Prop where
  kind_eq : isGapKind raw.label.kind = false
  inOrder : InOrder 0 (byteLength source) raw.children
  fits : ∀ t ∈ raw.children.flatMap Tree.subtrees, Fits source t

instance decidableInOrder (start stop : Nat) :
    (ts : List RawTree) → Decidable (InOrder start stop ts)
  | [] => inferInstanceAs (Decidable (start ≤ stop))
  | t :: ts =>
    have := decidableInOrder t.label.bytes.stop stop ts
    inferInstanceAs (Decidable (_ ∧ _ ∧ _))

instance (source : List Char) (t : RawTree) : Decidable (Fits source t) :=
  decidable_of_iff
    (IsBoundary source t.label.bytes.start ∧ IsBoundary source t.label.bytes.stop ∧
      InOrder t.label.bytes.start t.label.bytes.stop t.children ∧ isGapKind t.label.kind = false)
    ⟨fun ⟨h₁, h₂, h₃, h₄⟩ => ⟨h₁, h₂, h₃, h₄⟩, fun ⟨h₁, h₂, h₃, h₄⟩ => ⟨h₁, h₂, h₃, h₄⟩⟩

theorem InOrder.le {start stop : Nat} {ts : List RawTree} (h : InOrder start stop ts) :
    start ≤ stop := by
  induction ts generalizing start with
  | nil => exact h
  | cons t ts ih => exact Nat.le_trans h.1 (Nat.le_trans h.2.1 (ih h.2.2))

end RawTree

/-! ## Gaps and outlines -/

/-- Whether a node holds source that no raw node covers. -/
def NodeInfo.isGap (n : NodeInfo) : Bool := isGapKind n.kind

/-- A node that is there for source that no raw node covers. -/
structure NodeInfo.IsGapOf (source : List Char) (n : NodeInfo) : Prop where
  isGap : n.isGap = true
  text_ne_nil : n.text source ≠ []
  named_eq : n.named = false
  field_eq : n.field = none
  kind_eq_iff : n.kind = whitespaceKind ↔ ∀ c ∈ n.text source, Unicode.isWhiteSpace c = true

/-- A node is a gap only as a leaf, and has no two gaps in a row among its children. -/
structure Tree.Spaced (source : List Char) (t : Tree NodeInfo) : Prop where
  gap : t.label.isGap = true → t.children = [] ∧ t.label.IsGapOf source
  apart : t.children.IsChain fun c d => c.label.isGap = false ∨ d.label.isGap = false

/-- What a raw node and its node have in common. -/
structure Outline where
  kind : String
  field : Option String
  named : Bool
  error : Bool
  bytes : Span
  deriving DecidableEq, Repr

def NodeInfo.outline (n : NodeInfo) : Outline := ⟨n.kind, n.field, n.named, n.error, n.bytes⟩

def RawInfo.outline (n : RawInfo) : Outline :=
  ⟨n.kind, n.field, n.named, n.isError || n.isMissing, n.bytes⟩

/-- The outline that the syntax tree is to have: that of the raw tree, except at the root. -/
def RawTree.outline (source : List Char) (raw : RawTree) : Tree Outline :=
  .node ⟨raw.label.kind, none, true, raw.label.isError, ⟨0, byteLength source⟩⟩
    (raw.children.map (Tree.map RawInfo.outline))

/-- Side by side, the trees are the raw trees with gaps between them, and cover the source from one
offset to another. -/
inductive Converts (source : List Char) :
    Nat → List RawTree → List (Tree NodeInfo) → Nat → Prop
  | nil (i : Nat) : Converts source i [] [] i
  | gap {i k : Nat} {n : NodeInfo} {raws : List RawTree} {ts : List (Tree NodeInfo)}
      (isGapOf : n.IsGapOf source) (located : n.Located source) (start : n.range.start = i)
      (apart : ∀ t ∈ ts.head?, t.label.isGap = false)
      (tail : Converts source n.range.stop raws ts k) :
      Converts source i raws (.node n [] :: ts) k
  | leaf {i k : Nat} {n : NodeInfo} {r : RawInfo} {raws : List RawTree} {ts : List (Tree NodeInfo)}
      (outline : n.outline = r.outline) (isGap : n.isGap = false) (located : n.Located source)
      (start : n.range.start = i) (tail : Converts source n.range.stop raws ts k) :
      Converts source i (.node r [] :: raws) (.node n [] :: ts) k
  | node {i k : Nat} {n : NodeInfo} {r : RawInfo} {below raws : List RawTree}
      {children ts : List (Tree NodeInfo)} (outline : n.outline = r.outline)
      (isGap : n.isGap = false) (located : n.Located source) (start : n.range.start = i)
      (nonempty : below ≠ []) (inside : Converts source i below children n.range.stop)
      (tail : Converts source n.range.stop raws ts k) :
      Converts source i (.node r below :: raws) (.node n children :: ts) k

namespace Converts

variable {i k : Nat} {raws : List RawTree} {ts : List (Tree NodeInfo)}

theorem ne_nil (h : Converts source i raws ts k) (hne : raws ≠ []) : ts ≠ [] := by
  cases h with
  | nil => exact absurd rfl hne
  | gap => exact List.cons_ne_nil _ _
  | leaf => exact List.cons_ne_nil _ _
  | node => exact List.cons_ne_nil _ _

theorem lossless (h : Converts source i raws ts k) : Lossless source i ts k := by
  induction h with
  | nil i => exact .nil i
  | gap _ located start _ _ ih => exact .leaf located start ih
  | leaf _ _ located start _ ih => exact .leaf located start ih
  | node _ _ located start nonempty inside _ ihInside ih =>
    exact .node located start (inside.ne_nil nonempty) ihInside ih

/-- Without the gaps, the trees have the outline of the raw trees. -/
theorem map_pruneAll (h : Converts source i raws ts k) :
    (Tree.pruneAll NodeInfo.isGap ts).map (Tree.map NodeInfo.outline) =
      raws.map (Tree.map RawInfo.outline) := by
  induction h with
  | nil => rfl
  | gap isGapOf _ _ _ _ ih =>
    rw [Tree.pruneAll, Tree.label, if_pos isGapOf.isGap, ih]
  | leaf outline isGap _ _ _ ih =>
    simp [Tree.pruneAll, Tree.label, isGap, Tree.prune, outline, ih]
  | node outline isGap _ _ _ _ _ ihInside ih =>
    simp [Tree.pruneAll, Tree.label, isGap, Tree.prune, outline, ihInside, ih]

/-- There are no two gaps in a row. -/
theorem isChain_isGap (h : Converts source i raws ts k) :
    ts.IsChain fun t u => t.label.isGap = false ∨ u.label.isGap = false := by
  induction h with
  | nil => exact .nil
  | gap _ _ _ apart _ ih => exact List.isChain_cons.mpr ⟨fun t ht => Or.inr (apart t ht), ih⟩
  | leaf _ isGap _ _ _ ih => exact List.isChain_cons.mpr ⟨fun _ _ => Or.inl isGap, ih⟩
  | node _ isGap _ _ _ _ _ _ ih => exact List.isChain_cons.mpr ⟨fun _ _ => Or.inl isGap, ih⟩

/-- The gaps are where they may be, all the way down. -/
theorem spaced (h : Converts source i raws ts k) :
    ∀ t ∈ ts.flatMap Tree.subtrees, t.Spaced source := by
  induction h with
  | nil => simp
  | gap isGapOf _ _ _ _ ih =>
    exact Tree.forall_subtrees_cons.mpr ⟨⟨fun _ => ⟨rfl, isGapOf⟩, .nil⟩, by simp, ih⟩
  | leaf _ isGap _ _ _ ih =>
    refine Tree.forall_subtrees_cons.mpr ⟨?_, by simp, ih⟩
    exact ⟨fun hgap => Bool.noConfusion (isGap.symm.trans hgap), .nil⟩
  | node _ isGap _ _ _ inside _ ihInside ih =>
    refine Tree.forall_subtrees_cons.mpr ⟨?_, ihInside, ih⟩
    exact ⟨fun hgap => Bool.noConfusion (isGap.symm.trans hgap), inside.isChain_isGap⟩

end Converts

/-! ## The builder converts -/

namespace RawTree

/-- The node of a shape over the characters from one offset to another. -/
theorem located_toInfo (shape : NodeShape) (id : Nat) {i k : Nat} (hik : i ≤ k)
    (hk : k ≤ source.length) :
    (shape.toInfo id ⟨i, k⟩
      ⟨byteLength (source.take i), byteLength (source.take k)⟩).Located source :=
  ⟨hik, hk, rfl, rfl⟩

/-- The source between two offsets becomes a gap, if there is any. -/
theorem addGap_converts {b : Builder} (hb : b.source = source) {i j : Nat} (hij : i ≤ j)
    (hj : j ≤ source.length) :
    ∃ gaps, b.Extends (addGap (ByteIndex.ofText source) (byteLength (source.take i))
        (byteLength (source.take j)) b) gaps ∧
      ∀ {raws : List RawTree} {ts : List (Tree NodeInfo)} {k : Nat},
        (∀ t ∈ ts.head?, t.label.isGap = false) → Converts source j raws ts k →
          Converts source i raws (gaps ++ ts) k := by
  have hi : i ≤ source.length := Nat.le_trans hij hj
  rw [addGap, ByteIndex.get_ofText hi, ByteIndex.get_ofText hj]
  split
  · next hlt =>
    have hlt : i < j := by
      rw [← Nat.not_le, byteLength_take_le_iff hj] at hlt
      omega
    refine ⟨_, .leaf b _ _ _, fun apart tail => ?_⟩
    refine .gap ⟨?_, ?_, rfl, rfl, ?_⟩ (located_toInfo _ _ hij hj) rfl apart tail
    · simp only [NodeInfo.isGap, NodeShape.toInfo]
      split <;> decide
    · rw [NodeInfo.text, ← List.length_pos_iff]
      change 0 < (Span.slice ⟨i, j⟩ source).length
      rw [Span.length_slice hj]
      omega
    · simp only [NodeInfo.text, NodeShape.toInfo, hb]
      split <;> simp_all [whitespaceKind, textKind]
  · next hnot =>
    obtain rfl : i = j := by
      rw [Nat.not_lt, byteLength_take_le_iff hj] at hnot
      omega
    exact ⟨[], .refl b, fun _ tail => tail⟩

mutual

/-- A raw node becomes a node with the same outline. -/
theorem addNode_converts (raw : RawTree) (hfits : ∀ t ∈ raw.subtrees, Fits source t) {i j : Nat}
    (hj : j ≤ source.length) (hstart : raw.label.bytes.start = byteLength (source.take i))
    (hstop : raw.label.bytes.stop = byteLength (source.take j)) (hij : i ≤ j) {b : Builder}
    (hb : b.source = source) :
    ∃ tree, b.Extends (addNode (ByteIndex.ofText source) raw b) [tree] ∧
      tree.label.isGap = false ∧
      ∀ {raws : List RawTree} {ts : List (Tree NodeInfo)} {k : Nat},
        Converts source j raws ts k → Converts source i (raw :: raws) (tree :: ts) k := by
  have hi : i ≤ source.length := Nat.le_trans hij hj
  have hself := hfits raw raw.mem_subtrees_self
  match raw with
  | .node ⟨kind, field, named, isError, isMissing, bytes⟩ [] =>
    obtain ⟨start, stop⟩ := bytes
    obtain rfl : start = byteLength (source.take i) := hstart
    obtain rfl : stop = byteLength (source.take j) := hstop
    rw [addNode, ByteIndex.get_ofText hi, ByteIndex.get_ofText hj]
    refine ⟨_, .leaf b _ _ _, hself.kind_eq, fun tail => ?_⟩
    exact .leaf rfl hself.kind_eq (located_toInfo _ _ hij hj) rfl tail
  | .node ⟨kind, field, named, isError, isMissing, bytes⟩ (t :: ts) =>
    obtain ⟨start, stop⟩ := bytes
    obtain rfl : start = byteLength (source.take i) := hstart
    obtain rfl : stop = byteLength (source.take j) := hstop
    have hbelow : ∀ u ∈ (t :: ts).flatMap Tree.subtrees, Fits source u := by
      intro u hu
      exact hfits u (by rw [Tree.subtrees_node]; exact List.mem_cons_of_mem _ hu)
    rw [addNode, ByteIndex.get_ofText hi, ByteIndex.get_ofText hj]
    obtain ⟨children, hextends, hconverts⟩ :=
      addChildren_converts (t :: ts) hbelow hij hj hself.inOrder (b := b.enter _ _ _) hb
    refine ⟨_, hextends.node _ _, hself.kind_eq, fun tail => ?_⟩
    exact .node rfl hself.kind_eq (located_toInfo _ _ hij hj) rfl (List.cons_ne_nil t ts)
      hconverts tail

/-- Raw nodes side by side become nodes with the same outlines, and gaps between them. -/
theorem addChildren_converts (raws : List RawTree)
    (hfits : ∀ t ∈ raws.flatMap Tree.subtrees, Fits source t) {i k : Nat} (hik : i ≤ k)
    (hk : k ≤ source.length)
    (horder : InOrder (byteLength (source.take i)) (byteLength (source.take k)) raws) {b : Builder}
    (hb : b.source = source) :
    ∃ ts, b.Extends (addChildren (ByteIndex.ofText source) (byteLength (source.take i))
      (byteLength (source.take k)) raws b) ts ∧ Converts source i raws ts k := by
  match raws with
  | [] =>
    obtain ⟨gaps, hextends, hconverts⟩ := addGap_converts hb hik hk
    rw [addChildren]
    exact ⟨gaps, hextends, List.append_nil gaps ▸ hconverts (by simp) (.nil k)⟩
  | t :: raws =>
    have hself := hfits t (List.mem_flatMap.mpr ⟨t, by simp, t.mem_subtrees_self⟩)
    obtain ⟨p, hp, hstart⟩ := hself.start_boundary
    obtain ⟨q, hq, hstop⟩ := hself.stop_boundary
    obtain ⟨hbefore, hspan, hrest⟩ := horder
    have hafter := hrest.le
    rw [hstart] at hbefore
    rw [hstop] at hrest hafter
    rw [hstart, hstop] at hspan
    have hip : i ≤ p := (byteLength_take_le_iff (Nat.le_trans hik hk)).mp hbefore
    have hpq : p ≤ q := (byteLength_take_le_iff hp).mp hspan
    have hqk : q ≤ k := (byteLength_take_le_iff hq).mp hafter
    obtain ⟨gaps, hgaps, hgapsConvert⟩ := addGap_converts hb hip hp
    have hb₁ := hgaps.source_eq.trans hb
    obtain ⟨tree, htree, hplain, htreeConverts⟩ := addNode_converts t
      (fun u hu => hfits u (List.mem_flatMap.mpr ⟨t, by simp, hu⟩)) hq hstart hstop hpq hb₁
    have hb₂ := htree.source_eq.trans hb₁
    obtain ⟨ts, hts, htsConvert⟩ := addChildren_converts raws
      (fun u hu => hfits u (by rw [List.flatMap_cons]; exact List.mem_append_right _ hu))
      hqk hk hrest hb₂
    refine ⟨gaps ++ [tree] ++ ts, ?_, ?_⟩
    · simp only [addChildren, hstart, hstop]
      rw [Nat.max_eq_right (Nat.le_trans hbefore hspan)]
      exact (hgaps.trans htree).trans hts
    · rw [List.append_assoc]
      exact hgapsConvert (by simpa using hplain) (htreeConverts htsConvert)

end

/-- The root over the converted children covers the whole source. -/
theorem exists_toSyntaxTree {raw : RawTree} (h : WellFormed source raw) :
    ∃ n ts, toSyntaxTree source raw = ⟨source, .node n ts⟩ ∧ n.range = ⟨0, source.length⟩ ∧
      n.outline = (outline source raw).label ∧ Converts source 0 raw.children ts source.length := by
  obtain ⟨ts, hextends, hconverts⟩ := addChildren_converts raw.children h.fits (Nat.zero_le _)
    (Nat.le_refl source.length) (by simpa [byteLength] using h.inOrder)
    (b := Builder.start source
      { kind := raw.label.kind, named := true, error := raw.label.isError }) rfl
  rw [List.take_zero, List.take_length] at hextends
  have hget : (ByteIndex.ofText source).get (byteLength source) = source.length := by
    simpa using ByteIndex.get_ofText (Nat.le_refl source.length)
  refine ⟨_, ts, hextends.finish _ _, ?_, rfl, hconverts⟩
  rw [NodeShape.toInfo, hget]

/-- A syntax tree that keeps the source and the raw tree. -/
structure IsLossless (source : List Char) (raw : RawTree) (tree : SyntaxTree) : Prop where
  source_eq : tree.source = source
  leafTexts_flatten : tree.leafTexts.flatten = source
  /-- The characters of every node are those of its bytes. -/
  located : ∀ t ∈ tree.root.subtrees, t.label.Located source
  /-- The children of every node lie end to end and fill it. -/
  filled : ∀ t ∈ tree.root.subtrees, t.Filled
  /-- Without the gaps, the tree is the raw tree. -/
  map_prune : (tree.root.prune NodeInfo.isGap).map NodeInfo.outline = outline source raw
  spaced : ∀ t ∈ tree.root.subtrees, t.Spaced source

/-- **The conversion is lossless both ways.** It keeps the source, and it keeps the raw tree. -/
theorem toSyntaxTree_lossless {raw : RawTree} (h : WellFormed source raw) :
    IsLossless source raw (toSyntaxTree source raw) := by
  obtain ⟨n, ts, heq, hrange, houtline, hconverts⟩ := exists_toSyntaxTree h
  have hkind : n.kind = raw.label.kind := congrArg Outline.kind houtline
  have hbytes : n.bytes = ⟨0, byteLength source⟩ := congrArg Outline.bytes houtline
  have hgap : n.isGap = false := by
    rw [NodeInfo.isGap, hkind]
    exact h.kind_eq
  have hlocated : n.Located source := by
    constructor <;> simp [hrange, hbytes, byteLength]
  have hlossless : Lossless source 0 [.node n ts] source.length :=
    .wrap hlocated hrange hconverts.lossless
  rw [heq]
  refine ⟨rfl, ?_, ?_, ?_, ?_, ?_⟩
  · simpa [SyntaxTree.leafTexts, Span.slice_zero] using hlossless.flatten_leaves
  · simpa using hlossless.located
  · simpa using hlossless.filled
  · rw [Tree.prune, Tree.map_node, houtline, hconverts.map_pruneAll]
    rfl
  · intro t ht
    rw [Tree.subtrees_node, List.mem_cons] at ht
    rcases ht with rfl | ht
    · exact ⟨fun h => Bool.noConfusion (hgap.symm.trans h), hconverts.isChain_isGap⟩
    · exact hconverts.spaced t ht

/-- In `é x;`, a name of two bytes and, after source that no node covers, a node that was made
up. -/
def exampleTree : RawTree :=
  .node ⟨"program", none, true, false, false, ⟨0, 5⟩⟩
    [.node ⟨"statement", none, true, true, false, ⟨0, 4⟩⟩
      [.node ⟨"identifier", some "name", true, false, false, ⟨0, 2⟩⟩ [],
       .node ⟨"identifier", none, true, false, true, ⟨4, 4⟩⟩ []]]

theorem toSyntaxTree_lossless_missing_node :
    WellFormed ['é', ' ', 'x', ';'] exampleTree ∧
      IsLossless ['é', ' ', 'x', ';'] exampleTree
        (toSyntaxTree ['é', ' ', 'x', ';'] exampleTree) := by
  have h : WellFormed ['é', ' ', 'x', ';'] exampleTree := ⟨by decide, by decide, by decide⟩
  exact ⟨h, toSyntaxTree_lossless h⟩

end RawTree

end SourceEditor

import SourceEditor.Highlight.Semantic
import SourceEditor.Proofs.Syntax.Cursor
import SourceEditor.Proofs.Syntax.RawTree
import Mathlib.Data.List.Find

/-!
# Highlights and gaps

A converted syntax tree has gaps that its raw tree does not have: they stand among the children of
every node and number the nodes anew. The rules for Java do not see them. They find in the converted
tree what they find in the raw tree, whose nodes are read in place with their bytes counted in
characters (`RawTree.javaHighlights`).

`Cursor.Bares c d` says that the cursor `d` stands where `c` stands once the gaps are taken away, as
far as a rule can look. One rule cannot tell the two apart (`Java.highlight_eq_of_bares`), and the
walks over a converted tree and over its raw tree go through such cursors side by side
(`Converts.filterMap_highlight`).
-/

namespace SourceEditor

variable {source : List Char}

/-! ## Raw trees on their own -/

/-- A raw node as a node of a syntax tree, its bytes counted in characters. -/
def RawInfo.toNode (source : List Char) (n : RawInfo) : NodeInfo :=
  (RawTree.shape n).toInfo 0 ⟨charsBefore source n.bytes.start, charsBefore source n.bytes.stop⟩
    n.bytes

namespace RawTree

/-- The nodes of a raw tree as they are, with nothing added. -/
def bare (source : List Char) (raw : RawTree) : Tree NodeInfo :=
  raw.map (RawInfo.toNode source)

/-- What the rules for Java find in a raw tree. -/
def javaHighlights (source : List Char) (raw : RawTree) : List Highlight :=
  (raw.bare source).cursors.filterMap Java.highlight

/-- The raw tree with a root that covers the whole source and fills no field. -/
def spanning (source : List Char) (raw : RawTree) : RawTree :=
  .node { raw.label with field := none, bytes := ⟨0, byteLength source⟩ } raw.children

theorem bare_node (r : RawInfo) (raws : List RawTree) :
    bare source (.node r raws) =
      .node (r.toNode source) (raws.map (bare source)) :=
  Tree.map_node _ r raws

end RawTree

/-! ## What a rule looks at -/

/-- What a rule for Java looks at in a node. -/
structure Sight where
  kind : String
  field : Option String
  range : Span
  deriving DecidableEq, Repr

def NodeInfo.sight (n : NodeInfo) : Sight := ⟨n.kind, n.field, n.range⟩

def Tree.sight (t : Tree NodeInfo) : Sight := t.label.sight

@[simp]
theorem Tree.sight_node (n : NodeInfo) (ts : List (Tree NodeInfo)) : (node n ts).sight = n.sight :=
  rfl

namespace NodeInfo.Located

variable {n : NodeInfo} {r : RawInfo}

/-- A located node looks like a raw node with the same kind, field and bytes. -/
theorem sight_eq (h : n.Located source) (hkind : n.kind = r.kind) (hfield : n.field = r.field)
    (hbytes : n.bytes = r.bytes) : n.sight = (r.toNode source).sight := by
  have hstart : charsBefore source r.bytes.start = n.range.start := by
    rw [← hbytes, h.start_byte, charsBefore_byteLength (h.start_le_stop.trans h.stop_le_length)]
  have hstop : charsBefore source r.bytes.stop = n.range.stop := by
    rw [← hbytes, h.stop_byte, charsBefore_byteLength h.stop_le_length]
  simp only [sight, RawInfo.toNode, NodeShape.toInfo, RawTree.shape, hkind, hfield, hstart, hstop]

theorem sight_eq_of_outline (h : n.Located source) (houtline : n.outline = r.outline) :
    n.sight = (r.toNode source).sight :=
  h.sight_eq (congrArg Outline.kind houtline) (congrArg Outline.field houtline)
    (congrArg Outline.bytes houtline)

end NodeInfo.Located

namespace Cursor

/-- The kind of the parent, and that of the grandparent if there is one. -/
def elders (c : Cursor NodeInfo) : Option (String × Option String) :=
  c.parent?.map fun p => (p.kind, p.parent?.map kind)

theorem elders_child (p : Cursor NodeInfo) (before : List (Tree NodeInfo)) (t : Tree NodeInfo)
    (after : List (Tree NodeInfo)) :
    (child p before t after).elders = some (p.kind, p.parent?.map kind) :=
  rfl

/-- What there is to see of the children of a node. -/
def parts (c : Cursor NodeInfo) : List Sight := c.tree.children.map Tree.sight

/-- The cursor `d` stands where `c` stands, in a tree without the gaps. -/
structure Bares (c d : Cursor NodeInfo) : Prop where
  sight_eq : c.label.sight = d.label.sight
  elders_eq : c.elders = d.elders
  parts_eq : c.parts.filter (!isGapKind ·.kind) = d.parts
  gap_field : ∀ s ∈ c.parts, isGapKind s.kind = true → s.field = none

theorem find?_children {β : Type} (c : Cursor NodeInfo) (p : Sight → Bool) (f : Sight → β) :
    (c.children.find? fun e => p e.label.sight).map (fun e => f e.label.sight) =
      (c.parts.find? p).map f := by
  rw [parts, ← map_tree_children, List.map_map, List.find?_map, Option.map_map]
  rfl

namespace Bares

variable {c d : Cursor NodeInfo}

theorem kind_eq (h : Bares c d) : c.kind = d.kind := congrArg Sight.kind h.sight_eq

theorem field_eq (h : Bares c d) : c.label.field = d.label.field := congrArg Sight.field h.sight_eq

theorem range_eq (h : Bares c d) : c.label.range = d.label.range := congrArg Sight.range h.sight_eq

/-- A search that no gap answers finds the same child with the gaps and without. -/
theorem find?_parts (h : Bares c d) {p : Sight → Bool}
    (hp : ∀ s : Sight, isGapKind s.kind = true → s.field = none → p s = false) :
    c.parts.find? p = d.parts.find? p := by
  rw [← h.parts_eq, List.find?_filter]
  refine List.find?_congr ?_
  intro s hs
  cases hgap : isGapKind s.kind with
  | false => simp
  | true => simpa using hp s hgap (h.gap_field s hs hgap)

end Bares

end Cursor

/-! ## The rules -/

theorem isGapKind_iff {kind : String} :
    isGapKind kind = true ↔ kind = whitespaceKind ∨ kind = textKind := by
  simp [isGapKind]

namespace Java

variable {c d : Cursor NodeInfo}

theorem highlight_of_isGap (h : c.label.isGap = true) : highlight c = none := by
  rcases isGapKind_iff.mp h with hkind | hkind <;>
    simp [highlight, Cursor.kind, hkind, whitespaceKind, textKind]

/-- Of white space the rules say nothing, so that they might as well be asked. -/
theorem highlights_eq (tree : SyntaxTree) :
    tree.highlights highlight = tree.root.cursors.filterMap highlight := by
  rw [SyntaxTree.highlights, List.filterMap_filter]
  refine List.filterMap_congr ?_
  intro c _
  split
  · rfl
  · next hspace =>
    have hkind : c.label.kind = whitespaceKind := by simpa [Cursor.kind] using hspace
    exact (highlight_of_isGap (isGapKind_iff.mpr (Or.inl hkind))).symm

/-- Whether a child of a package or import declaration is a path. -/
def isPath (s : Sight) : Bool := s.kind == "scoped_identifier" || s.kind == "identifier"

theorem isPath_of_isGapKind {s : Sight} (h : isGapKind s.kind = true) : isPath s = false := by
  rcases isGapKind_iff.mp h with hkind | hkind <;> simp [isPath, hkind, whitespaceKind, textKind]

/-- The highlight of the first path among the children of a node. -/
theorem path_eq (c : Cursor NodeInfo) :
    (c.children.find? fun e => e.kind == "scoped_identifier" || e.kind == "identifier").map
        (fun e => (⟨e.label.range, .namespaceName⟩ : Highlight)) =
      (c.parts.find? isPath).map (⟨·.range, .namespaceName⟩) :=
  c.find?_children isPath fun s => Highlight.mk s.range .namespaceName

/-- The end of the name among the children of a node. -/
theorem nameStop_eq (c : Cursor NodeInfo) :
    (c.childByField? "name").map (·.label.range.stop) =
      (c.parts.find? (·.field == some "name")).map (·.range.stop) :=
  c.find?_children (·.field == some "name") (·.range.stop)

/-- A rule does not see the gaps. -/
theorem highlight_eq_of_bares (h : c.Bares d) : highlight c = highlight d := by
  have hname := h.find?_parts (p := (·.field == some "name")) (by simp +contextual)
  have hpath := h.find?_parts (p := isPath) (fun s hgap _ => isPath_of_isGapKind hgap)
  simp only [highlight, nameStop_eq, path_eq, h.kind_eq, h.range_eq, h.field_eq, hname, hpath]
  congr 1
  -- What is left are the names, of which only the parents have not been compared.
  have helders := h.elders_eq
  unfold Cursor.elders at helders
  cases hc : c.parent? <;> cases hd : d.parent? <;> simp_all

theorem filterMap_walk (h : c.Bares d) {n m : NodeInfo} {ts us : List (Tree NodeInfo)}
    (hbelow : (c.walkChildren [] ts).filterMap highlight =
      (d.walkChildren [] us).filterMap highlight) :
    (c.walk (.node n ts)).filterMap highlight = (d.walk (.node m us)).filterMap highlight := by
  rw [Cursor.walk, Cursor.walk, List.filterMap_cons, List.filterMap_cons, highlight_eq_of_bares h,
    hbelow]

/-- The kinds of nodes that are highlighted from where they start, wherever they stand. -/
def standalone : List String := ["type_identifier", "marker_annotation", "annotation"]

/-- The rules never look at the field of a root, and at its range only if it is standalone. -/
theorem highlight_root {a b : NodeInfo} (ts : List (Tree NodeInfo)) (hkind : a.kind = b.kind)
    (hrange : a.kind ∈ standalone → a.range = b.range) :
    highlight (.root (.node a ts)) = highlight (.root (.node b ts)) := by
  have hparts : (Cursor.root (.node a ts)).parts = (Cursor.root (.node b ts)).parts := rfl
  simp only [highlight, nameStop_eq, path_eq, hparts]
  by_cases h : a.kind ∈ standalone
  · simp [Cursor.kind, Cursor.label, Cursor.tree, Tree.label, Cursor.parent?, ← hkind, hrange h]
  · have hkinds : a.kind ≠ "type_identifier" ∧ a.kind ≠ "marker_annotation" ∧
        a.kind ≠ "annotation" := by
      simpa [standalone] using h
    simp [Cursor.kind, Cursor.label, Cursor.tree, Tree.label, Cursor.parent?, ← hkind, hkinds]

/-- A highlight covers its node, or its node up to the end of a child, or a child. -/
theorem range_of_highlight {m : Highlight} (h : highlight c = some m) :
    m.range = c.label.range ∨
      ∃ s ∈ c.parts, m.range = ⟨c.label.range.start, s.range.stop⟩ ∨ m.range = s.range := by
  simp only [highlight, nameStop_eq, path_eq] at h
  split at h
  · split at h
    · cases h
    · obtain ⟨category, -, rfl⟩ := Option.map_eq_some_iff.mp h
      exact Or.inl rfl
  split at h
  · cases h
    exact Or.inl rfl
  split at h
  · cases h
    cases hname : c.parts.find? (·.field == some "name") with
    | none => exact Or.inl rfl
    | some s => exact Or.inr ⟨s, List.mem_of_find?_eq_some hname, Or.inl rfl⟩
  split at h
  · obtain ⟨s, hpath, rfl⟩ := Option.map_eq_some_iff.mp h
    exact Or.inr ⟨s, List.mem_of_find?_eq_some hpath, Or.inr rfl⟩
  · cases h

end Java

/-! ## The two walks -/

namespace Converts

variable {i k : Nat} {raws : List RawTree} {ts : List (Tree NodeInfo)}

/-- Apart from the gaps, the trees look like the raw trees. -/
theorem filter_sight (h : Converts source i raws ts k) :
    (ts.map Tree.sight).filter (!isGapKind ·.kind) =
      (raws.map (RawTree.bare source)).map Tree.sight := by
  have hkeep {n : NodeInfo} {r : RawInfo} (outline : n.outline = r.outline)
      (isGap : n.isGap = false) (located : n.Located source) (children : List (Tree NodeInfo))
      (below : List RawTree) (ts : List (Tree NodeInfo)) :
      ((Tree.node n children :: ts).map Tree.sight).filter (!isGapKind ·.kind) =
        (RawTree.bare source (.node r below)).sight ::
          (ts.map Tree.sight).filter (!isGapKind ·.kind) := by
    have hkind : isGapKind n.sight.kind = false := isGap
    rw [RawTree.bare_node, Tree.sight_node, ← located.sight_eq_of_outline outline]
    simp [hkind]
  induction h with
  | nil => rfl
  | @gap i k n raws ts isGapOf _ _ _ _ ih =>
    have hkind : isGapKind n.sight.kind = true := isGapOf.isGap
    rw [← ih]
    simp [hkind]
  | leaf outline isGap located _ _ ih => rw [hkeep outline isGap located _ [], ih]; rfl
  | @node _ _ _ _ below _ _ _ outline isGap located _ _ _ _ _ ih =>
    rw [hkeep outline isGap located _ below, ih]; rfl

theorem gap_field (h : Converts source i raws ts k) :
    ∀ s ∈ ts.map Tree.sight, isGapKind s.kind = true → s.field = none := by
  induction h with
  | nil => simp
  | gap isGapOf _ _ _ _ ih => exact List.forall_mem_cons.mpr ⟨fun _ => isGapOf.field_eq, ih⟩
  | leaf _ isGap _ _ _ ih =>
    exact List.forall_mem_cons.mpr ⟨fun h => Bool.noConfusion (isGap.symm.trans h), ih⟩
  | node _ isGap _ _ _ _ _ _ ih =>
    exact List.forall_mem_cons.mpr ⟨fun h => Bool.noConfusion (isGap.symm.trans h), ih⟩

/-- The cursors at a node with converted children and at its raw node. -/
theorem bares (h : Converts source i raws ts k) {c d : Cursor NodeInfo}
    (hsight : c.label.sight = d.label.sight) (helders : c.elders = d.elders)
    (hc : c.tree.children = ts) (hd : d.tree.children = raws.map (RawTree.bare source)) :
    c.Bares d := by
  have hparts : c.parts = ts.map Tree.sight := by rw [Cursor.parts, hc]
  refine ⟨hsight, helders, ?_, hparts ▸ h.gap_field⟩
  rw [hparts, h.filter_sight, Cursor.parts, hd]

/-- The rules find the same below two nodes of the same kind, one with converted children and one
with the raw children. -/
theorem filterMap_highlight (h : Converts source i raws ts k) {p q : Cursor NodeInfo}
    (hkind : p.kind = q.kind) (hparent : p.parent?.map Cursor.kind = q.parent?.map Cursor.kind)
    (before before' : List (Tree NodeInfo)) :
    (Cursor.walkChildren p before ts).filterMap Java.highlight =
      (Cursor.walkChildren q before' (raws.map (RawTree.bare source))).filterMap
        Java.highlight := by
  have helders {p q : Cursor NodeInfo} (hkind : p.kind = q.kind)
      (hparent : p.parent?.map Cursor.kind = q.parent?.map Cursor.kind)
      (before before' after after' : List (Tree NodeInfo)) (t t' : Tree NodeInfo) :
      (Cursor.child p before t after).elders = (Cursor.child q before' t' after').elders := by
    rw [Cursor.elders_child, Cursor.elders_child, hkind, hparent]
  -- The siblings before a node grow along the walk, and no rule looks at them.
  induction h generalizing p q before before' with
  | nil => rfl
  | @gap i k n raws ts isGapOf _ _ _ _ ih =>
    have hgap : Java.highlight (.child p before (.node n []) ts) = none :=
      Java.highlight_of_isGap isGapOf.isGap
    rw [Cursor.walkChildren, Cursor.walk, Cursor.walkChildren, List.singleton_append,
      List.filterMap_cons_none hgap]
    exact ih hkind hparent _ _
  | @leaf i k n r raws ts outline isGap located start tail ih =>
    rw [List.map_cons, RawTree.bare_node, Cursor.walkChildren, Cursor.walkChildren,
      List.filterMap_append, List.filterMap_append, ih hkind hparent]
    congr 1
    have hnone : Converts source i [] [] i := .nil i
    refine Java.filterMap_walk ?_ rfl
    exact hnone.bares (located.sight_eq_of_outline outline) (helders hkind hparent _ _ _ _ _ _) rfl
      rfl
  | @node i k n r below raws children ts outline isGap located start _ inside _ ihInside ih =>
    rw [List.map_cons, RawTree.bare_node, Cursor.walkChildren, Cursor.walkChildren,
      List.filterMap_append, List.filterMap_append, ih hkind hparent]
    congr 1
    have hhere := inside.bares (c := .child p before (.node n children) ts)
      (d := .child q before' (.node (r.toNode source) _)
        (raws.map (RawTree.bare source)))
      (located.sight_eq_of_outline outline) (helders hkind hparent _ _ _ _ _ _) rfl rfl
    refine Java.filterMap_walk hhere (ihInside hhere.kind_eq ?_ _ _)
    exact congrArg some hkind

end Converts

namespace RawTree

/-- What is found in a source is what the rules for Java find in the raw tree. -/
structure GapsUnseen (source : List Char) (raw : RawTree) (found : List Highlight) : Prop where
  /-- The gaps change nothing. The one change of the conversion that can be seen is that the root
  covers the whole source. -/
  eq_spanning : found = javaHighlights source (raw.spanning source)
  /-- That is only seen if the root is of a kind that is highlighted wherever it stands, and did not
  cover the source before. -/
  eq_raw : (raw.label.kind ∈ Java.standalone → raw.label.bytes = ⟨0, byteLength source⟩) →
    found = javaHighlights source raw
  inside : ∀ m ∈ found, m.range.start ≤ m.range.stop ∧ m.range.stop ≤ source.length

/-- The walk over a converted tree and that over the raw tree differ at most at the root. -/
theorem filterMap_cursors {n : NodeInfo} {r : RawInfo} {raws : List RawTree}
    {ts : List (Tree NodeInfo)} (h : Converts source 0 raws ts source.length)
    (hkind : n.kind = r.kind)
    (hroot : Java.highlight (.root (.node n ts)) =
      Java.highlight (.root (bare source (.node r raws)))) :
    (Tree.node n ts).cursors.filterMap Java.highlight = javaHighlights source (.node r raws) := by
  have hbelow := h.filterMap_highlight (p := .root (.node n ts))
    (q := .root (bare source (.node r raws))) (by rw [bare_node]; exact hkind) rfl [] []
  rw [bare_node] at hroot hbelow
  rw [javaHighlights, bare_node, Tree.cursors, Tree.cursors, Cursor.walk, Cursor.walk,
    List.filterMap_cons, List.filterMap_cons, hroot, hbelow]

/-- Highlights lie in the source. -/
theorem inside_of_lossless {t : Tree NodeInfo} (h : Lossless source 0 [t] source.length) :
    ∀ m ∈ t.cursors.filterMap Java.highlight,
      m.range.start ≤ m.range.stop ∧ m.range.stop ≤ source.length := by
  intro m hm
  obtain ⟨c, hc, hhighlight⟩ := List.mem_filterMap.mp hm
  have hnode : c.tree ∈ t.subtrees := by
    rw [← Tree.map_tree_cursors]
    exact List.mem_map_of_mem hc
  have hlocated : ∀ u ∈ t.subtrees, u.label.Located source := by simpa using h.located
  have hstart : ∀ u ∈ t.subtrees, ∀ v ∈ u.children, u.label.range.start ≤ v.label.range.start := by
    simpa using h.children_start
  rcases Java.range_of_highlight hhighlight with heq | ⟨s, hs, hcases⟩
  · rw [heq]
    exact ⟨(hlocated _ hnode).start_le_stop, (hlocated _ hnode).stop_le_length⟩
  · obtain ⟨v, hv, rfl⟩ := List.mem_map.mp hs
    have hchild := hlocated v (Tree.mem_subtrees_of_mem_children hnode hv)
    rcases hcases with heq | heq <;> rw [heq]
    · exact ⟨(hstart _ hnode v hv).trans hchild.start_le_stop, hchild.stop_le_length⟩
    · exact ⟨hchild.start_le_stop, hchild.stop_le_length⟩

/-- **The rules for Java do not see the gaps.** What they find in a converted tree is what they find
in the raw tree, and it lies in the source. -/
theorem gaps_unseen {raw : RawTree} (h : WellFormed source raw) :
    GapsUnseen source raw (Language.java.semanticHighlights (toSyntaxTree source raw)) := by
  obtain ⟨n, ts, heq, hrange, houtline, hconverts⟩ := exists_toSyntaxTree h
  obtain ⟨r, raws⟩ := raw
  have hfound : Language.java.semanticHighlights (toSyntaxTree source (.node r raws)) =
      (Tree.node n ts).cursors.filterMap Java.highlight := by
    rw [heq]
    exact Java.highlights_eq _
  have hkind : n.kind = r.kind := congrArg Outline.kind houtline
  have hfield : n.field = none := congrArg Outline.field houtline
  have hbytes : n.bytes = ⟨0, byteLength source⟩ := congrArg Outline.bytes houtline
  have hlocated : n.Located source := by
    constructor <;> simp [hrange, hbytes, byteLength]
  have hroot : Java.highlight (.root (.node n ts)) =
      Java.highlight (.root (bare source (spanning source (.node r raws)))) := by
    rw [spanning, bare_node]
    exact Java.highlight_eq_of_bares
      (hconverts.bares (hlocated.sight_eq hkind hfield hbytes) rfl rfl rfl)
  rw [hfound]
  refine ⟨?_, fun hspans => ?_, inside_of_lossless (.wrap hlocated hrange hconverts.lossless)⟩
  · exact filterMap_cursors hconverts hkind hroot
  · refine filterMap_cursors hconverts hkind (hroot.trans ?_)
    rw [spanning, bare_node, bare_node]
    refine Java.highlight_root _ rfl fun hstandalone => ?_
    have hspans : r.bytes = ⟨0, byteLength source⟩ := hspans hstandalone
    simp only [RawInfo.toNode, NodeShape.toInfo, hspans]

/-- In ` @ É int ü;`, a declaration with gaps before it, in it and in its annotation. -/
def exampleDeclaration : RawTree :=
  .node ⟨"program", none, true, false, false, ⟨1, 13⟩⟩
    [.node ⟨"field_declaration", none, true, false, false, ⟨1, 13⟩⟩
      [.node ⟨"modifiers", none, true, false, false, ⟨1, 5⟩⟩
        [.node ⟨"marker_annotation", none, true, false, false, ⟨1, 5⟩⟩
          [.node ⟨"@", none, false, false, false, ⟨1, 2⟩⟩ [],
           .node ⟨"identifier", some "name", true, false, false, ⟨3, 5⟩⟩ []]],
       .node ⟨"integral_type", some "type", true, false, false, ⟨6, 9⟩⟩ [],
       .node ⟨"variable_declarator", some "declarator", true, false, false, ⟨10, 12⟩⟩
         [.node ⟨"identifier", some "name", true, false, false, ⟨10, 12⟩⟩ []],
       .node ⟨";", none, false, false, false, ⟨12, 13⟩⟩ []]]

theorem gaps_unseen_declaration :
    let source := " @ É int ü;".toList
    let found := Language.java.semanticHighlights (toSyntaxTree source exampleDeclaration)
    WellFormed source exampleDeclaration ∧ GapsUnseen source exampleDeclaration found ∧
      found = javaHighlights source exampleDeclaration := by
  intro source found
  have h : WellFormed source exampleDeclaration := ⟨by decide, by decide, by decide +kernel⟩
  have hunseen := gaps_unseen h
  exact ⟨h, hunseen, hunseen.eq_raw (by decide)⟩

example : Language.java.semanticHighlights
    (toSyntaxTree " @ É int ü;".toList exampleDeclaration) =
      [⟨⟨1, 4⟩, .annotationName⟩, ⟨⟨9, 10⟩, .property⟩] := by
  decide +kernel

end RawTree

end SourceEditor

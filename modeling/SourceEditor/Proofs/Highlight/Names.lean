import SourceEditor.Proofs.Highlight.Painting
import SourceEditor.Proofs.Syntax.Cursor
import SourceEditor.Proofs.Syntax.TokenTree
import Mathlib.Data.List.TakeWhile

/-!
# Highlights of names in Kotlin

The rules for Kotlin build a highlight from one or two nodes of the token tree, which they find by
going from sibling to sibling. Some rules step over white space and comments on the way and others
do not. This module shows that what lies between the two nodes is never more than a name: every
highlight covers tokens in a row, each of which is an identifier, an at sign, a dot or a star
(`Kotlin.coversName_of_mem_highlights`).

The rules only walk on from a node that is itself part of the name, and stop before the first node
that is not. Nodes of these kinds are leaves and not groups, so siblings in a row are tokens in a
row (`TokenTree.Grouped.exists_row`). This holds for unbalanced sources as well, since it only takes
that the children of every node are made of tokens.

All other tokens then have the styles of their kinds (`Kotlin.expectedStyle?_of_not_isNamePart`).
-/

namespace SourceEditor

variable {source : List Char}

/-! ## Names in a source -/

/-- Whether names are made of tokens like this one: identifiers, and the signs of annotations and
paths. -/
def Token.isNamePart (t : Token) : Bool :=
  match t.kind with
  | .identifier | .at | .dot => true
  | .operator => t.text == ['*']
  | _ => false

/-- A range reaches over tokens from the first to the last. -/
structure Span.Reaches (range : Span) (row : List Token) : Prop where
  start : ∃ t ∈ row.head?, t.start = range.start
  stop : ∃ t ∈ row.getLast?, t.stop = range.stop

/-- A range covers tokens in a row of a Kotlin source, all of them parts of a name. -/
def CoversName (source : List Char) (range : Span) : Prop :=
  ∃ row, row <:+: tokens Rules.kotlin source ∧ range.Reaches row ∧ ∀ t ∈ row, t.isNamePart = true

/-- Tokens that lie end to end can be parted anywhere. -/
theorem Tiles.exists_of_append {i : Nat} {text : List Char} {ts us : List Token}
    (h : Tiles i text (ts ++ us)) :
    ∃ front back, text = front ++ back ∧ Tiles i front ts ∧ Tiles (i + front.length) back us := by
  induction ts generalizing i text with
  | nil => exact ⟨[], text, rfl, .nil i, h⟩
  | cons t ts ih =>
    generalize hall : t :: ts ++ us = all at h
    cases h with
    | nil => cases hall
    | cons start nonempty tail =>
      cases hall
      obtain ⟨front, back, rfl, hfront, hback⟩ := ih tail
      refine ⟨t.text ++ front, back, (List.append_assoc _ _ _).symm, .cons start nonempty hfront,
        ?_⟩
      have hplace : t.stop + front.length = i + (t.text ++ front).length := by
        rw [Token.stop, start, List.length_append, Nat.add_assoc]
      exact hplace ▸ hback

theorem Tiles.stop_le {i : Nat} {text : List Char} {ts : List Token} (h : Tiles i text ts) :
    ∀ t ∈ ts, t.stop ≤ i + text.length := by
  intro t ht
  obtain ⟨front, back, rfl⟩ := List.append_of_mem ht
  rw [List.append_cons] at h
  obtain ⟨left, right, rfl, hleft, -⟩ := h.exists_of_append
  rw [hleft.stop_of_getLast? t (by simp), List.length_append]
  omega

/-- A row of tokens that lie end to end is the text between the ends of a range. -/
theorem Span.Reaches.eq {range : Span} {row : List Token} (h : range.Reaches row) {i : Nat}
    {text : List Char} (htiles : Tiles i text row) :
    range = ⟨i, i + text.length⟩ ∧ text ≠ [] := by
  obtain ⟨first, hfirst, hstart⟩ := h.start
  obtain ⟨last, hlast, hstop⟩ := h.stop
  refine ⟨?_, ?_⟩
  · rw [← htiles.stop_of_getLast? last hlast, hstop, ← htiles.start_of_head? first hfirst, hstart]
  · rintro rfl
    have hrow : row = [] := List.length_eq_zero_iff.mp (Nat.le_zero.mp htiles.length_le)
    rw [hrow] at hfirst
    cases hfirst

namespace CoversName

variable {range : Span}

/-- A name has text. -/
theorem bounds (h : CoversName source range) :
    range.start < range.stop ∧ range.stop ≤ source.length := by
  obtain ⟨row, ⟨front, back, heq⟩, hreaches, -⟩ := h
  have htiles := tiles_tokens Rules.productive_kotlin source
  rw [← heq] at htiles
  obtain ⟨text, -, rfl, hfront, -⟩ := htiles.exists_of_append
  obtain ⟨before, name, rfl, -, hname⟩ := hfront.exists_of_append
  obtain ⟨rfl, hne⟩ := hreaches.eq hname
  have hpos := List.length_pos_iff.mpr hne
  simp only [List.length_append]
  omega

/-- A token that is no part of a name lies before or after it. -/
theorem apart (h : CoversName source range) {t : Token} (ht : t ∈ tokens Rules.kotlin source)
    (hpart : t.isNamePart = false) : t.stop ≤ range.start ∨ range.stop ≤ t.start := by
  obtain ⟨row, ⟨front, back, heq⟩, hreaches, hrow⟩ := h
  have htiles := tiles_tokens Rules.productive_kotlin source
  rw [← heq] at htiles ht
  obtain ⟨text, rest, -, hfront, hback⟩ := htiles.exists_of_append
  obtain ⟨before, name, rfl, hbefore, hname⟩ := hfront.exists_of_append
  obtain ⟨rfl, -⟩ := hreaches.eq hname
  rcases List.mem_append.mp ht with ht | ht
  · rcases List.mem_append.mp ht with ht | ht
    · exact Or.inl (hbefore.stop_le t ht)
    · exact absurd (hrow t ht) (Bool.eq_false_iff.mp hpart)
  · right
    have hle := hback.offset_le t ht
    rw [List.length_append] at hle
    simp only
    omega

end CoversName

/-! ## Siblings in a row -/

/-- Whether a node is a token that names are made of. -/
def NodeInfo.isNamePart (source : List Char) (n : NodeInfo) : Bool :=
  n.kind == "identifier" || n.kind == "@" || n.kind == "." ||
    (n.kind == "operator" && n.text source == ['*'])

theorem NodeInfo.Carries.isNamePart_eq {t : Token} {n : NodeInfo} (h : n.Carries source t) :
    t.isNamePart = n.isNamePart source := by
  rw [Token.isNamePart, NodeInfo.isNamePart, h.kind_eq, h.text_eq]
  cases t.kind <;> simp [TokenKind.name]

namespace TokenTree

theorem IsGroup.isNamePart_eq {g : Group} {v : List Token} {n : NodeInfo}
    {children : List (Tree NodeInfo)} (h : IsGroup source g v n children) :
    n.isNamePart source = false := by
  rw [NodeInfo.isNamePart, h.kind_eq]
  cases g <;> simp [Group.kind]

namespace Grouped

variable {i k : Nat} {v : List Token} {ts us : List (Tree NodeInfo)}

theorem exists_of_append (h : Grouped source i v (ts ++ us) k) :
    ∃ front back j, v = front ++ back ∧ Grouped source i front ts j ∧
      Grouped source j back us k := by
  induction ts generalizing i v with
  | nil => exact ⟨[], v, i, rfl, .nil i, h⟩
  | cons t ts ih =>
    cases h with
    | leaf carries located start tail =>
      obtain ⟨front, back, j, rfl, hfront, hback⟩ := ih tail
      exact ⟨_, back, j, rfl, .leaf carries located start hfront, hback⟩
    | group isGroup located range below tail =>
      obtain ⟨front, back, j, rfl, hfront, hback⟩ := ih tail
      exact ⟨_, back, j, (List.append_assoc _ _ _).symm,
        .group isGroup located range below hfront, hback⟩

/-- The children of every node are made of tokens in a row. -/
theorem exists_grouped_children (h : Grouped source i v ts k) :
    ∀ t ∈ ts.flatMap Tree.subtrees,
      ∃ i w k, Grouped source i w t.children k ∧ w <:+: v := by
  have mono {v w : List Token} (hsegment : v <:+: w) {t : Tree NodeInfo}
      (ht : ∃ i u k, Grouped source i u t.children k ∧ u <:+: v) :
      ∃ i u k, Grouped source i u t.children k ∧ u <:+: w := by
    obtain ⟨i, u, k, hgrouped, hu⟩ := ht
    exact ⟨i, u, k, hgrouped, hu.trans hsegment⟩
  induction h with
  | nil => simp
  | @leaf i k u n v ts _ _ _ _ ih =>
    refine Tree.forall_subtrees_cons.mpr ⟨?_, by simp, fun t ht => ?_⟩
    · exact ⟨i, [], i, .nil i, List.nil_infix⟩
    · exact mono (List.suffix_cons u v).isInfix (ih t ht)
  | @group i j k g n v w children ts _ _ _ below _ ihBelow ih =>
    refine Tree.forall_subtrees_cons.mpr ⟨?_, fun t ht => ?_, fun t ht => ?_⟩
    · exact ⟨i, v, j, below, (List.prefix_append v w).isInfix⟩
    · exact mono (List.prefix_append v w).isInfix (ihBelow t ht)
    · exact mono (List.suffix_append v w).isInfix (ih t ht)

/-- A part of a name is the leaf of a token. -/
theorem exists_token {first : Tree NodeInfo} (h : Grouped source i v (first :: ts) k)
    (hpart : first.label.isNamePart source = true) :
    ∃ t w, v = t :: w ∧ t.isNamePart = true ∧ first.label.range = ⟨t.start, t.stop⟩ ∧
      Grouped source t.stop w ts k := by
  cases h with
  | leaf carries _ _ tail =>
    exact ⟨_, _, rfl, carries.isNamePart_eq.trans hpart, carries.range_eq, tail⟩
  | group isGroup => exact absurd hpart (Bool.eq_false_iff.mp isGroup.isNamePart_eq)

/-- Parts of names that are siblings in a row are the leaves of tokens in a row. -/
theorem exists_row {first : Tree NodeInfo} {more rest : List (Tree NodeInfo)}
    (h : Grouped source i v (first :: (more ++ rest)) k)
    (hparts : ∀ t ∈ first :: more, t.label.isNamePart source = true) :
    ∃ row back, v = row ++ back ∧ (∀ t ∈ row, t.isNamePart = true) ∧
      Span.Reaches ⟨first.label.range.start, (more.getLast?.getD first).label.range.stop⟩ row := by
  induction more generalizing first i v with
  | nil =>
    obtain ⟨t, w, rfl, ht, hrange, -⟩ := h.exists_token (hparts first List.mem_cons_self)
    refine ⟨[t], w, rfl, by simpa using ht, ⟨t, rfl, ?_⟩, ⟨t, rfl, ?_⟩⟩
    · rw [hrange]
    · simp [hrange]
  | cons next more ih =>
    obtain ⟨t, w, rfl, ht, hrange, htail⟩ := h.exists_token (hparts first List.mem_cons_self)
    obtain ⟨row, back, rfl, hrow, hreaches⟩ :=
      ih htail fun u hu => hparts u (List.mem_cons_of_mem first hu)
    obtain ⟨last, hlast, hstop⟩ := hreaches.stop
    refine ⟨t :: row, back, rfl, ?_, ⟨t, rfl, ?_⟩, ⟨last, ?_, ?_⟩⟩
    · simpa using ⟨ht, hrow⟩
    · rw [hrange]
    · rw [List.getLast?_cons, Option.mem_def.mp hlast]
      rfl
    · rw [hstop, List.getLast?_cons, Option.getD_some]

end Grouped

/-- A node of a token tree, among siblings that are made of tokens in a row. -/
def Stands (source : List Char) (c : Cursor NodeInfo) : Prop :=
  ∃ i w k, Grouped source i w c.family k ∧ w <:+: tokens Rules.kotlin source

namespace Stands

variable {c : Cursor NodeInfo}

theorem of_mem_after (h : Stands source c) {d : Cursor NodeInfo} (hd : d ∈ c.after) :
    Stands source d := by
  obtain ⟨i, w, k, hgrouped, hw⟩ := h
  exact ⟨i, w, k, Cursor.family_of_mem_after hd ▸ hgrouped, hw⟩

/-- From a part of a name to the last of the parts that follow it directly. -/
theorem coversName (h : Stands source c) (more : List (Cursor NodeInfo))
    {rest : List (Cursor NodeInfo)} (hafter : c.after = more ++ rest)
    (hparts : ∀ d ∈ c :: more, d.label.isNamePart source = true) :
    CoversName source ⟨c.label.range.start, (more.getLast?.getD c).label.range.stop⟩ := by
  obtain ⟨i, w, k, hgrouped, hw⟩ := h
  obtain ⟨front, hfamily⟩ := c.exists_family_eq
  rw [hfamily, hafter, List.map_append] at hgrouped
  obtain ⟨before, here, j, rfl, -, hhere⟩ := hgrouped.exists_of_append
  obtain ⟨row, back, rfl, hrow, hreaches⟩ := hhere.exists_row fun t ht => by
    rw [← List.map_cons (f := Cursor.tree)] at ht
    obtain ⟨d, hd, rfl⟩ := List.mem_map.mp ht
    exact hparts d hd
  refine ⟨row, ?_, ?_, hrow⟩
  · exact List.IsInfix.trans ⟨before, back, List.append_assoc _ _ _⟩ hw
  · rwa [List.getLast?_map, Option.getD_map] at hreaches

end Stands

/-- Below the root of a token tree, all nodes stand among trees made of tokens. -/
theorem IsRoot.stands {root : Tree NodeInfo} (h : IsRoot source (tokens Rules.kotlin source) root)
    {c : Cursor NodeInfo} (hc : c ∈ root.cursors) : c = .root root ∨ Stands source c := by
  obtain ⟨n, children⟩ := root
  rcases Tree.family_of_mem_cursors hc with rfl | ⟨u, hu, hfamily⟩
  · exact Or.inl rfl
  · right
    rw [Stands, hfamily]
    rw [Tree.subtrees_node] at hu
    rcases List.mem_cons.mp hu with rfl | hu
    · exact ⟨_, _, _, h.grouped, List.infix_rfl⟩
    · exact h.grouped.exists_grouped_children u hu

end TokenTree

/-! ## The rules -/

namespace Kotlin

open TokenTree (Stands)

variable {c : Cursor NodeInfo}

theorem isNamePart_of_continuesPath (h : continuesPath source c = true) :
    c.label.isNamePart source = true := by
  simp only [continuesPath, Cursor.kind, Bool.or_eq_true] at h
  simp only [NodeInfo.isNamePart, Bool.or_eq_true]
  tauto

theorem isNamePart_of_identifier (h : (c.kind == "identifier") = true) :
    c.label.isNamePart source = true := by
  rw [Cursor.kind] at h
  simp [NodeInfo.isNamePart, h]

/-- A path goes on as long as one part of it follows the other directly. -/
theorem coversName_of_pathRange? (hc : Stands source c) {range : Span}
    (h : pathRange? source c = some range) : CoversName source range := by
  unfold pathRange? at h
  split at h
  · cases h
  · next first hfirst =>
    split at h
    · next hkind =>
      cases h
      have hmem : first ∈ c.after := List.mem_of_mem_filter (List.mem_of_mem_head? hfirst)
      refine (hc.of_mem_after hmem).coversName _ List.takeWhile_append_dropWhile.symm ?_
      rintro d (_ | ⟨_, hd⟩)
      · exact isNamePart_of_identifier hkind
      · exact isNamePart_of_continuesPath (List.mem_takeWhile_imp hd)
    · cases h

/-- An annotation is its sign and the name that follows it directly. -/
theorem coversName_of_at (hc : Stands source c) (hat : (c.kind == "@") = true)
    {name : Cursor NodeInfo} (hnext : c.nextSibling? = some name)
    (hname : (name.kind == "identifier") = true) :
    CoversName source ⟨c.label.range.start, name.label.range.stop⟩ := by
  obtain ⟨rest, hafter⟩ := List.head?_eq_some_iff.mp hnext
  have hsign : c.label.isNamePart source = true := by
    rw [Cursor.kind] at hat
    simp [NodeInfo.isNamePart, hat]
  exact hc.coversName [name] hafter (by simp [hsign, isNamePart_of_identifier hname])

theorem coversName_of_highlight (hc : Stands source c) {h : Highlight}
    (hhighlight : highlight source c = some h) : CoversName source h.range := by
  unfold highlight at hhighlight
  split at hhighlight
  · next hkind =>
    obtain ⟨category, -, rfl⟩ := Option.map_eq_some_iff.mp hhighlight
    exact hc.coversName [] rfl (by simp [isNamePart_of_identifier hkind])
  · split at hhighlight
    · next hat =>
      split at hhighlight
      · next name hnext =>
        split at hhighlight
        · next hname =>
          cases hhighlight
          exact coversName_of_at hc hat hnext hname
        · cases hhighlight
      · cases hhighlight
    · split at hhighlight
      · obtain ⟨range, hrange, rfl⟩ := Option.map_eq_some_iff.mp hhighlight
        exact coversName_of_pathRange? hc hrange
      · cases hhighlight

theorem highlight_root {root : Tree NodeInfo} (h : root.label.kind = TokenTree.rootShape.kind) :
    highlight source (.root root) = none := by
  simp [highlight, Cursor.isKeyword, Cursor.kind, Cursor.label, Cursor.tree, h, TokenTree.rootShape]

/-- Every highlight of a token tree covers a name. -/
theorem coversName_of_mem_highlights {h : Highlight}
    (hmem : h ∈ Language.kotlin.semanticHighlights (TokenTree.parse source)) :
    CoversName source h.range := by
  obtain ⟨c, hc, hhighlight⟩ := List.mem_filterMap.mp hmem
  rw [TokenTree.source_parse] at hhighlight
  have hroot := TokenTree.isRoot_parse source
  rcases hroot.stands (List.mem_of_mem_filter hc) with rfl | hstands
  · rw [highlight_root hroot.kind_eq] at hhighlight
    cases hhighlight
  · exact coversName_of_highlight hstands hhighlight

/-- A path ends before a space, and a bracket that is never closed is no part of an annotation. -/
example :
    Language.kotlin.semanticHighlights
        (TokenTree.parse "import a.* .@B(".toList) =
      [⟨⟨7, 10⟩, .namespaceName⟩, ⟨⟨12, 14⟩, .annotationName⟩, ⟨⟨13, 14⟩, .annotationName⟩] := by
  decide +kernel

/-! ## Other tokens -/

theorem not_covers_of_not_isNamePart {t : Token} (ht : t ∈ tokens Rules.kotlin source)
    (hpart : t.isNamePart = false) {i : Nat} (hstart : t.start ≤ i) (hstop : i < t.stop) :
    ∀ h ∈ Language.kotlin.semanticHighlights (TokenTree.parse source),
      ¬ (h.range.start ≤ i ∧ i < h.range.stop) := by
  intro h hmem
  have hapart := (coversName_of_mem_highlights hmem).apart ht hpart
  omega

/-- The style that a character of another token is to have is that of the token. -/
theorem expectedStyle?_of_not_isNamePart (java : ExternalParser) {options : Options}
    (htokens : options.tokenHighlighting = true) {t : Token}
    (ht : t ∈ tokens Rules.kotlin source) (hpart : t.isNamePart = false) {i : Nat}
    (hstart : t.start ≤ i) (hstop : i < t.stop) :
    expectedStyle? java options (some .kotlin) source i =
      t.kind.category?.map options.colors.style := by
  have hname : Language.kotlin.nameStyle? java options.colors source i = none := by
    rw [Language.nameStyle?, Run.lastStyle_eq_none, List.forall_mem_map]
    intro h hmem hcovers
    exact not_covers_of_not_isNamePart ht hpart hstart hstop h hmem ((h.covers_run _ i).mp hcovers)
  rw [expectedStyle?, hname, ite_self, Option.none_or, if_pos htokens,
    Language.kotlin.tokenStyle?_of_mem options.colors ht hstart hstop]
  split
  · next hkind => rw [t.kind.category?_eq_none_iff.mpr hkind, Option.map_none]
  · rfl

end Kotlin

end SourceEditor

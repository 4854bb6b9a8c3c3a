import SourceEditor.Proofs.Document.Memory
import SourceEditor.Proofs.Token.Coverage
import SourceEditor.Session.Basic

/-!
# What is painted where

`expectedStyle?` says which style a character is to have, given the text, the language and the
options: that of the last highlight of a name over it, otherwise that of its token. It knows nothing
of caches and runs. This module shows that the runs of a cache, into which the highlights were
painted when it was empty, come to the same thing, character by character:

* a token highlight is the only one over its characters, because tokens do not overlap
  (`lastStyle_lexicalHighlights`);
* the runs of the cache are those of the expected styles (`runs_paint_decomposes`).
-/

namespace SourceEditor

/-- A highlight as a run, in the style of a scheme. -/
def Highlight.run (colors : Scheme) (h : Highlight) : Run :=
  ⟨h.range.start, h.range.stop - h.range.start, colors.style h.category⟩

/-- The style of the token that an offset lies in, unless it is white space or a bad character. -/
def Language.tokenStyle? (language : Language) (colors : Scheme) (text : List Char) (i : Nat) :
    Option Style :=
  ((language.tokens text).find? fun t => t.start ≤ i && i < t.stop).bind fun t =>
    if t.kind = .whitespace ∨ t.kind = .badCharacter then none
    else t.kind.category?.map colors.style

/-- The style of the last highlight of a name that an offset lies in. -/
def Language.nameStyle? (java : ExternalParser) (language : Language) (colors : Scheme)
    (text : List Char) (i : Nat) : Option Style :=
  Run.lastStyle ((language.semanticHighlights (language.parse java text)).map (·.run colors)) i

/-- The style that the character at an offset is to have: that of a name if there is one, otherwise
that of its token, each as far as the options ask for it. -/
def expectedStyle? (java : ExternalParser) (options : Options) (language : Option Language)
    (text : List Char) (i : Nat) : Option Style :=
  match language with
  | none => none
  | some l =>
    (if options.semanticHighlighting then l.nameStyle? java options.colors text i else none).or
      (if options.tokenHighlighting then l.tokenStyle? options.colors text i else none)

/-! ## Tokens do not overlap -/

theorem TokenKind.category?_eq_none_iff (kind : TokenKind) :
    kind.category? = none ↔ kind = .whitespace ∨ kind = .badCharacter := by
  cases kind <;> decide

/-- The token that an offset lies in is the only one. -/
theorem Tiles.find?_eq_some {offset : Nat} {text : List Char} {tokens : List Token}
    (h : Tiles offset text tokens) {t : Token} (ht : t ∈ tokens) {i : Nat} (hstart : t.start ≤ i)
    (hstop : i < t.stop) : (tokens.find? fun t => t.start ≤ i && i < t.stop) = some t := by
  induction h with
  | nil => simp at ht
  | @cons offset token rest tokens start nonempty tail ih =>
    rcases List.mem_cons.mp ht with rfl | ht
    · simp [hstart, hstop]
    · have hbefore := tail.offset_le t ht
      rw [List.find?_cons_of_neg, ih ht]
      simp only [Bool.and_eq_true, decide_eq_true_eq]
      omega

theorem Highlight.covers_run (h : Highlight) (colors : Scheme) (i : Nat) :
    (h.run colors).Covers i ↔ h.range.start ≤ i ∧ i < h.range.stop := by
  simp only [run, Run.Covers, Run.stop]
  omega

theorem Token.lastStyle_highlight? (t : Token) (colors : Scheme) (i : Nat) :
    Run.lastStyle (t.highlight?.toList.map (·.run colors)) i =
      if t.start ≤ i ∧ i < t.stop then t.kind.category?.map colors.style else none := by
  cases hkind : t.kind.category? with
  | none => simp [highlight?, hkind, Run.lastStyle]
  | some category =>
    simp only [highlight?, hkind, Option.map_some, Option.toList_some, List.map_cons, List.map_nil,
      Run.lastStyle_singleton, Highlight.covers_run]
    rfl

/-- The highlights of tokens that lie end to end: the token that holds an offset decides. -/
theorem Tiles.lastStyle_highlights {offset : Nat} {text : List Char} {tokens : List Token}
    (h : Tiles offset text tokens) (colors : Scheme) (i : Nat) :
    Run.lastStyle ((tokens.filterMap Token.highlight?).map (·.run colors)) i =
      (tokens.find? fun t => t.start ≤ i && i < t.stop).bind fun t =>
        t.kind.category?.map colors.style := by
  induction h with
  | nil => rfl
  | @cons offset token rest tokens start nonempty tail ih =>
    have hsplit : ((token :: tokens).filterMap Token.highlight?).map (·.run colors) =
        token.highlight?.toList.map (·.run colors) ++
          (tokens.filterMap Token.highlight?).map (·.run colors) := by
      cases hhighlight : token.highlight? <;> simp [hhighlight]
    rw [hsplit, Run.lastStyle_append, ih, token.lastStyle_highlight?, List.find?_cons]
    by_cases hi : token.start ≤ i ∧ i < token.stop
    · -- the tokens after this one start where it stops
      have hnone : (tokens.find? fun t => t.start ≤ i && i < t.stop) = none := by
        rw [List.find?_eq_none]
        intro t ht
        have := tail.offset_le t ht
        simp only [Bool.and_eq_true, decide_eq_true_eq]
        omega
      simp [hi, hnone]
    · have hfirst : (decide (token.start ≤ i) && decide (i < token.stop)) = false := by
        simpa using hi
      simp [hi, hfirst]

theorem lastStyle_lexicalHighlights (language : Language) (colors : Scheme) (text : List Char)
    (i : Nat) :
    Run.lastStyle ((language.lexicalHighlights text).map (·.run colors)) i =
      language.tokenStyle? colors text i := by
  refine ((tiles_tokens language.productive_rules text).lastStyle_highlights colors i).trans ?_
  rw [Language.tokenStyle?]
  congr 1
  funext t
  split
  · next hkind => rw [(t.kind.category?_eq_none_iff).mpr hkind, Option.map_none]
  · rfl

theorem Language.tokenStyle?_of_mem (language : Language) (colors : Scheme) {text : List Char}
    {t : Token} (ht : t ∈ language.tokens text) {i : Nat} (hstart : t.start ≤ i)
    (hstop : i < t.stop) :
    language.tokenStyle? colors text i =
      if t.kind = .whitespace ∨ t.kind = .badCharacter then none
      else t.kind.category?.map colors.style := by
  have htiles := tiles_tokens language.productive_rules text
  rw [tokenStyle?, Language.tokens, htiles.find?_eq_some ht hstart hstop, Option.bind_some]

/-- All highlights of a text, those of the tokens first. -/
theorem lastStyle_highlights (java : ExternalParser) (options : Options)
    (language : Option Language) (text : List Char) (i : Nat) :
    Run.lastStyle
        ((Session.lexicalHighlights options language text ++ Session.semanticHighlights language
          (Session.highlightTree java options language text)).map (·.run options.colors)) i =
      expectedStyle? java options language text i := by
  rw [List.map_append, Run.lastStyle_append]
  cases language with
  | none => rfl
  | some l =>
    rw [expectedStyle?]
    congr 1
    · rw [Session.highlightTree]
      split <;> rfl
    · rw [Session.lexicalHighlights]
      split
      · exact lastStyle_lexicalHighlights l options.colors text i
      · rfl

/-! ## The cache -/

namespace Cache

theorem isDrained_drained (c : Cache) : c.drained.isDrained = true := by
  simp [drained, isDrained]

theorem slots_of_isDrained {c : Cache} (h : c.isDrained = true) :
    c.slots = List.replicate c.size none := by
  apply List.eq_replicate_iff.mpr
  refine ⟨rfl, fun slot hslot => ?_⟩
  simpa using List.all_eq_true.mp h slot hslot

theorem resize_of_isDrained {c : Cache} (h : c.isDrained = true) (length : Nat) :
    c.resize length = ⟨List.replicate (length + 1) none⟩ := by
  have hcount : min (length + 1) c.size + (length + 1 - c.size) = length + 1 := by omega
  rw [resize, slots_of_isDrained h, List.take_replicate, List.replicate_append_replicate, hcount]

end Cache

/-- A range of a cache that is painted in a style. -/
structure Stroke where
  range : Span
  style : Style
  deriving DecidableEq, Repr

/-- A stroke as a run. One whose range ends before it starts is empty. -/
def Stroke.run (s : Stroke) : Run := ⟨s.range.start, s.range.stop - s.range.start, s.style⟩

namespace Cache

/-- Paints strokes, later ones over earlier ones. -/
def paintStrokes (c : Cache) (strokes : List Stroke) : Cache :=
  strokes.foldl (fun c s => c.paint s.range s.style) c

theorem slots_paintStrokes (c : Cache) (strokes : List Stroke) :
    (c.paintStrokes strokes).slots = Run.paintAll (strokes.map Stroke.run) c.slots := by
  induction strokes generalizing c with
  | nil => rfl
  | cons s strokes ih => exact ih (c.paint s.range s.style)

/-- The runs of a cache that was painted when it was empty are those of the last strokes, as far as
both the cache and the document go. -/
theorem runs_paintStrokes_decomposes {c : Cache} (h : c.isDrained = true) (strokes : List Stroke)
    (length : Nat) :
    Run.Decomposes ((c.paintStrokes strokes).runs length) fun i =>
      if i < length ∧ i < c.size then Run.lastStyle (strokes.map Stroke.run) i else none := by
  refine ((Run.ofSlots_decomposes 0 _).clip length).congr fun i => ?_
  rw [Run.slotPaint, if_pos (Nat.zero_le i), Nat.sub_zero, slots_paintStrokes,
    Run.getElem?_paintAll, slots_of_isDrained h, List.getElem?_replicate]
  by_cases hlength : i < length
  · by_cases hsize : i < c.size
    · simp [hlength, hsize]
    · simp [hsize]
  · simp [hlength]

end Cache

theorem paint_eq_paintStrokes (colors : Scheme) (highlights : List Highlight) (c : Cache) :
    Session.paint colors highlights c =
      c.paintStrokes (highlights.map fun h => ⟨h.range, colors.style h.category⟩) := by
  rw [Session.paint, Cache.paintStrokes, List.foldl_map]

/-- Highlights that lie elsewhere leave a character as it was. -/
theorem get?_paint_of_apart (colors : Scheme) {highlights : List Highlight} {i : Nat}
    (h : ∀ x ∈ highlights, ¬ (x.range.start ≤ i ∧ i < x.range.stop)) (c : Cache) :
    (Session.paint colors highlights c).get? i = c.get? i := by
  have hnone : Run.lastStyle (highlights.map (·.run colors)) i = none := by
    rw [Run.lastStyle_eq_none, List.forall_mem_map]
    exact fun x hx hcovers => h x hx ((x.covers_run colors i).mp hcovers)
  rw [paint_eq_paintStrokes, Cache.get?, Cache.slots_paintStrokes, List.map_map,
    Run.getElem?_paintAll]
  change (c.slots[i]?.map fun old =>
    (Run.lastStyle (highlights.map (·.run colors)) i).or old).join = _
  simp [hnone, Cache.get?]

/-- The runs of a painted cache are those of the last highlights, up to the end of the document. -/
theorem runs_paint_decomposes {c : Cache} (h : c.isDrained = true) (colors : Scheme)
    (highlights : List Highlight) (length : Nat) :
    Run.Decomposes ((Session.paint colors highlights (c.resize length)).runs length) fun i =>
      if i < length then Run.lastStyle (highlights.map (·.run colors)) i else none := by
  have hresize := Cache.resize_of_isDrained h length
  have hdrained : (c.resize length).isDrained = true := by simp [hresize, Cache.isDrained]
  have hsize : (c.resize length).size = length + 1 := by simp [hresize, Cache.size]
  rw [paint_eq_paintStrokes]
  refine (Cache.runs_paintStrokes_decomposes hdrained _ length).congr fun i => ?_
  rw [hsize, List.map_map]
  by_cases hi : i < length
  · rw [if_pos hi, if_pos ⟨hi, by omega⟩]
    rfl
  · rw [if_neg hi, if_neg fun hboth => hi hboth.1]

end SourceEditor

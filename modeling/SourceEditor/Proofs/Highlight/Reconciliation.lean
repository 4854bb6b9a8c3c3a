import SourceEditor.Proofs.Highlight.Painting
import Mathlib.Data.List.Nodup
import Mathlib.Data.List.Perm.Subperm

/-!
# Reconciliation writes the last strokes, in as few runs as possible

Strokes are painted into an empty cache that may be shorter or longer than the document, and the
cache is then written to the document. `Cache.Reconciled` says what this leaves: the last stroke
over a character decides about its style, and `Cache.reconcile_paintStrokes` shows that it is so for
all strokes, cache sizes and documents.

That the runs are as few as possible is a counting argument (`Run.Decomposes.length_le`). Any other
disjoint runs with the same effect have a run over the start of each of ours, and one that reached
over the starts of two of ours would paint the character behind the first of them in its style.
-/

namespace SourceEditor

namespace Run

/-- Runs that have no character in common. -/
def Disjoint (r q : Run) : Prop := ∀ i, r.Covers i → ¬ q.Covers i

instance : Std.Symm Disjoint := ⟨fun _ _ h i hq hr => h i hr hq⟩

/-- Among disjoint runs the one over an offset decides there, wherever it stands in the list. -/
theorem lastStyle_of_disjoint {runs : List Run} (h : runs.Pairwise Disjoint) {r : Run}
    (hr : r ∈ runs) {i : Nat} (hi : r.Covers i) : lastStyle runs i = some r.style := by
  cases hlast : lastStyle runs i with
  | none => exact absurd hi (lastStyle_eq_none.mp hlast r hr)
  | some style =>
    obtain ⟨q, hq, hqi, rfl⟩ := lastStyle_eq_some hlast
    by_cases heq : q = r
    · rw [heq]
    · exact absurd hi (h.forall hq hr heq i hqi)

theorem lastStyle_eq_of_paintAll_eq {runs others : List Run} {length : Nat}
    (h : paintAll others (List.replicate length none) = paintAll runs (List.replicate length none))
    {i : Nat} (hi : i < length) : lastStyle others i = lastStyle runs i := by
  have hget := congrArg (fun slots => slots[i]?) h
  simp only [getElem?_paintAll, List.getElem?_replicate, if_pos hi, Option.map_some] at hget
  simpa using hget

namespace Decomposes

variable {runs others : List Run} {paint : Nat → Option Style} {length : Nat}

theorem covers_start (h : Decomposes runs paint) {r : Run} (hr : r ∈ runs) : r.Covers r.start := by
  have := h.count_pos r hr
  simp only [Covers, stop]
  omega

/-- A run of one style that reaches over the starts of two runs of a decomposition finds a character
of another style, or of none, behind the first. -/
theorem not_covers_starts (h : Decomposes runs paint) (hlength : ∀ i, length ≤ i → paint i = none)
    {r q o : Run} (hr : r ∈ runs) (hq : q ∈ runs) (hsep : r.Separated q)
    (ho : ∀ i < length, o.Covers i → paint i = some o.style) (hor : o.Covers r.start) :
    ¬ o.Covers q.start := by
  intro hoq
  have hle := hsep.stop_le
  have hpos := h.count_pos r hr
  have hqpos := h.count_pos q hq
  have hqstop := (h.isMaximal hlength hq).stop_le
  simp only [stop] at hle hqstop
  have hstyle : o.style = r.style := by
    have hpaint := (ho r.start (by omega) hor).symm.trans (h.paint_eq hr (h.covers_start hr))
    simpa using hpaint
  refine (h.isMaximal hlength hr).after_ne (by simp only [stop]; omega) ?_
  rw [← hstyle]
  refine ho r.stop (by simp only [stop]; omega) ⟨?_, ?_⟩
  · have := hor.1
    simp only [stop]
    omega
  · have := hoq.2
    simp only [stop] at this ⊢
    omega

/-- **A decomposition is as short as possible.** -/
theorem length_le (h : Decomposes runs paint) (hlength : ∀ i, length ≤ i → paint i = none)
    (hdisjoint : others.Pairwise Disjoint) (hothers : ∀ i < length, lastStyle others i = paint i) :
    runs.length ≤ others.length := by
  have hpaint (o : Run) (ho : o ∈ others) (i : Nat) (hi : i < length) (hcovers : o.Covers i) :
      paint i = some o.style := by
    rw [← hothers i hi, lastStyle_of_disjoint hdisjoint ho hcovers]
  have hexists (r : Run) : ∃ o, r ∈ runs → o ∈ others ∧ o.Covers r.start := by
    by_cases hr : r ∈ runs
    · have hpos := h.count_pos r hr
      have hstop := (h.isMaximal hlength hr).stop_le
      simp only [stop] at hstop
      have hlast := hothers r.start (by omega)
      rw [h.paint_eq hr (h.covers_start hr)] at hlast
      obtain ⟨o, ho, hcovers, -⟩ := lastStyle_eq_some hlast
      exact ⟨o, fun _ => ⟨ho, hcovers⟩⟩
    · exact ⟨r, fun h => absurd h hr⟩
  choose owner howner using hexists
  have hinjective : ∀ r ∈ runs, ∀ q ∈ runs, owner r = owner q → r = q := by
    intro r hr q hq heq
    obtain ⟨hmem, hcovers⟩ := howner r hr
    have hcovers' : (owner r).Covers q.start := heq ▸ (howner q hq).2
    obtain rfl | hsep | hsep := h.eq_or_separated hr hq
    · rfl
    · exact absurd hcovers' (h.not_covers_starts hlength hr hq hsep (hpaint _ hmem) hcovers)
    · exact absurd hcovers (h.not_covers_starts hlength hq hr hsep (hpaint _ hmem) hcovers')
  have hnodup : runs.Nodup := h.start_lt.imp fun hlt heq => by simp [heq] at hlt
  have hsubset : runs.map owner ⊆ others := by
    intro o ho
    obtain ⟨r, hr, rfl⟩ := List.mem_map.mp ho
    exact (howner r hr).1
  rw [← List.length_map owner]
  exact (List.subperm_of_subset (hnodup.map_on hinjective) hsubset).length_le

end Decomposes

end Run

namespace Stroke

/-- The style of the last stroke over an offset. -/
def lastStyle? (strokes : List Stroke) (i : Nat) : Option Style :=
  (strokes.reverse.find? fun s => s.range.start ≤ i && i < s.range.stop).map Stroke.style

theorem lastStyle_map_run (strokes : List Stroke) (i : Nat) :
    Run.lastStyle (strokes.map run) i = lastStyle? strokes i := by
  have hcovers (s : Stroke) :
      decide (s.run.Covers i) = (decide (s.range.start ≤ i) && decide (i < s.range.stop)) := by
    rw [← Bool.decide_and, decide_eq_decide]
    simp only [run, Run.Covers, Run.stop]
    omega
  rw [Run.lastStyle, lastStyle?, ← List.map_reverse, List.find?_map, Option.map_map]
  simp only [Function.comp_def, hcovers]
  rfl

end Stroke

namespace Cache

/-- What is left once strokes on a cache for `n` characters are written to a document `d`: the runs
that were written, the cache and the document. -/
structure Reconciled (strokes : List Stroke) (n : Nat) (d : MemoryDocument) (runs : List Run)
    (cache : Cache) (document : MemoryDocument) : Prop where
  /-- The last stroke over a character that has a slot decides, and all else stays. -/
  styleAt?_eq : ∀ i < d.length, document.styleAt? i =
    (if i ≤ n then Stroke.lastStyle? strokes i else none).or (d.styleAt? i)
  count_pos : ∀ r ∈ runs, 0 < r.count
  stop_le : ∀ r ∈ runs, r.stop ≤ d.length
  separated : runs.Pairwise Run.Separated
  /-- Disjoint runs with the same effect on an unstyled document are not fewer. -/
  length_le : ∀ others : List Run, others.Pairwise Run.Disjoint →
    Run.paintAll others (List.replicate d.length none) =
      Run.paintAll runs (List.replicate d.length none) → runs.length ≤ others.length
  /-- The runs are written and nothing else: one change for each, none of them without a lock, and
  one lock that is given back. -/
  document_eq : document =
    { d with
      styles := Run.paintAll runs d.styles
      lockCount := d.lockCount + 1
      styleChanges := d.styleChanges + runs.length }
  isDrained : cache.isDrained = true
  size_eq : cache.size = n + 1
  /-- There is nothing left to write. -/
  again : ∃ t, reconcile (cache, document) = .ok [] t

theorem ensureLength_eq_ok {n : Nat} {c sized : Cache} (h : ensureLength n c = .ok () sized) :
    sized = c.resize n := by
  unfold ensureLength at h
  split at h
  · cases h
    rfl
  · cases h

theorem size_paintStrokes (c : Cache) (strokes : List Stroke) :
    (c.paintStrokes strokes).size = c.size := by
  rw [size, slots_paintStrokes, Run.length_paintAll, size]

theorem runs_of_isDrained {c : Cache} (h : c.isDrained = true) (length : Nat) :
    c.runs length = [] := by
  apply List.eq_nil_iff_forall_not_mem.mpr
  intro r hr
  have hruns := runs_paintStrokes_decomposes h [] length
  have hpaint := hruns.paint_eq hr (hruns.covers_start hr)
  simp [Run.lastStyle] at hpaint

/-- **Reconciliation paints exactly the last strokes, with the fewest disjoint updates.** -/
theorem reconcile_paintStrokes {c sized : Cache} {n : Nat} {d : MemoryDocument}
    (hdrained : c.isDrained = true) (hsized : ensureLength n c = .ok () sized)
    (hstyles : d.styles.length = d.length) (strokes : List Stroke) :
    ∃ runs cache document,
      reconcile (sized.paintStrokes strokes, d) = .ok runs (cache, document) ∧
        Reconciled strokes n d runs cache document := by
  have hresize : sized = ⟨List.replicate (n + 1) none⟩ :=
    (ensureLength_eq_ok hsized).trans (resize_of_isDrained hdrained n)
  have hempty : sized.isDrained = true := by simp [hresize, isDrained]
  have hsize : sized.size = n + 1 := by simp [hresize, size]
  have hruns := runs_paintStrokes_decomposes hempty strokes d.length
  have hend (i : Nat) (hi : d.length ≤ i) :
      (if i < d.length ∧ i < sized.size then Run.lastStyle (strokes.map Stroke.run) i else none)
        = none := if_neg (by omega)
  refine ⟨_, _, _, reconcile_eq _ d, ?_, hruns.count_pos, stop_le_of_mem_runs _ _, hruns.separated,
    ?_, rfl, isDrained_drained _, ?_, ?_⟩
  · intro i hi
    have hslot : d.styles[i]? = some d.styles[i] := List.getElem?_eq_getElem (by omega)
    simp only [MemoryDocument.styleAt?, Run.getElem?_paintAll, hruns.lastStyle_eq, hsize,
      Stroke.lastStyle_map_run, hi, true_and, Nat.lt_succ_iff, hslot, Option.map_some,
      Option.join_some]
  · intro others hdisjoint heffect
    refine hruns.length_le hend hdisjoint fun i hi => ?_
    rw [Run.lastStyle_eq_of_paintAll_eq heffect hi, hruns.lastStyle_eq]
  · rw [drained, size, List.length_replicate, size_paintStrokes, hsize]
  · rw [reconcile_eq, runs_of_isDrained (isDrained_drained _)]
    exact ⟨_, rfl⟩

/-- Four characters, of which the last has a style and no slot. The first stroke is inverted, the
second one leaves the document and the third one is painted over it. -/
theorem reconcile_paintStrokes_short_cache :
    let red := Style.colored 0xff0000
    let blue := Style.colored 0x0000ff
    let strokes : List Stroke := [⟨⟨3, 1⟩, blue⟩, ⟨⟨0, 9⟩, red⟩, ⟨⟨1, 2⟩, blue⟩]
    let d : MemoryDocument :=
      { MemoryDocument.ofText ['w', 'r', 'e', 'n'] with styles := [none, none, none, some blue] }
    ∃ cache document,
      reconcile ((⟨[none, none, none]⟩ : Cache).paintStrokes strokes, d) =
          .ok [⟨0, 1, red⟩, ⟨1, 1, blue⟩, ⟨2, 1, red⟩] (cache, document) ∧
        Reconciled strokes 2 d [⟨0, 1, red⟩, ⟨1, 1, blue⟩, ⟨2, 1, red⟩] cache document ∧
        document.styles = [some red, some blue, some red, some blue] := by
  intro red blue strokes d
  obtain ⟨runs, cache, document, heq, h⟩ :=
    reconcile_paintStrokes (c := {}) (n := 2) (d := d) rfl rfl rfl strokes
  have hruns : runs = [⟨0, 1, red⟩, ⟨1, 1, blue⟩, ⟨2, 1, red⟩] := by
    rw [reconcile_eq] at heq
    injection heq with hruns
    exact hruns.symm.trans (by decide)
  subst hruns
  refine ⟨cache, document, heq, h, ?_⟩
  rw [h.document_eq]
  decide

end Cache

end SourceEditor

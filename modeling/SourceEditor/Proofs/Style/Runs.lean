import SourceEditor.Style.Range
import SourceEditor.Style.Run
import Mathlib.Data.List.Pairwise

/-!
# Painting with runs

Two questions about runs of equal style, answered offset by offset.

* What do runs look like once they are painted one after the other? The last one that covers an
  offset decides there, and what no run covers stays (`Run.getElem?_paintAll`).
* Which runs does a painting have? `Run.ofSlots` gives the maximal ones, each once and from left to
  right. `Run.Decomposes` collects what that takes, in a form that the recursion of `ofSlots` and
  the cutting at the end of a document both keep; `Run.Decomposes.mem_iff` reads the maximal runs
  off it.
-/

namespace SourceEditor.Run

/-- Whether a run reaches over an offset. -/
def Covers (r : Run) (i : Nat) : Prop := r.start ≤ i ∧ i < r.stop

instance (r : Run) (i : Nat) : Decidable (r.Covers i) :=
  inferInstanceAs (Decidable (r.start ≤ i ∧ i < r.stop))

/-! ## The last run decides -/

/-- Paints runs into slots, later ones over earlier ones. -/
def paintAll (runs : List Run) (slots : List (Option Style)) : List (Option Style) :=
  runs.foldl (fun slots r => changeRange (fun _ => some r.style) r.start r.count slots) slots

/-- The style of the last run that covers an offset. -/
def lastStyle (runs : List Run) (i : Nat) : Option Style :=
  (runs.reverse.find? fun r => decide (r.Covers i)).map Run.style

theorem lastStyle_append (rs qs : List Run) (i : Nat) :
    lastStyle (rs ++ qs) i = (lastStyle qs i).or (lastStyle rs i) := by
  simp only [lastStyle, List.reverse_append, List.find?_append]
  cases qs.reverse.find? fun r => decide (r.Covers i) <;> simp

theorem lastStyle_singleton (r : Run) (i : Nat) :
    lastStyle [r] i = if r.Covers i then some r.style else none := by
  by_cases h : r.Covers i <;> simp [lastStyle, h]

theorem lastStyle_eq_some {runs : List Run} {i : Nat} {style : Style}
    (h : lastStyle runs i = some style) : ∃ r ∈ runs, r.Covers i ∧ r.style = style := by
  obtain ⟨r, hfind, hstyle⟩ := Option.map_eq_some_iff.mp h
  refine ⟨r, ?_, ?_, hstyle⟩
  · simpa using List.mem_of_find?_eq_some hfind
  · simpa using List.find?_some hfind

theorem lastStyle_eq_none {runs : List Run} {i : Nat} :
    lastStyle runs i = none ↔ ∀ r ∈ runs, ¬ r.Covers i := by
  simp [lastStyle, List.find?_eq_none]

@[simp]
theorem length_paintAll (runs : List Run) (slots : List (Option Style)) :
    (paintAll runs slots).length = slots.length := by
  induction runs generalizing slots with
  | nil => rfl
  | cons r runs ih => rw [paintAll, List.foldl_cons, ← paintAll, ih, length_changeRange]

/-- Painted runs, offset by offset. -/
theorem getElem?_paintAll (runs : List Run) (slots : List (Option Style)) (i : Nat) :
    (paintAll runs slots)[i]? = slots[i]?.map fun old => (lastStyle runs i).or old := by
  induction runs generalizing slots with
  | nil => simp [paintAll, lastStyle]
  | cons r runs ih =>
    rw [paintAll, List.foldl_cons, ← paintAll, ih, getElem?_changeRange,
      ← List.singleton_append, lastStyle_append, lastStyle_singleton]
    by_cases h : r.Covers i
    · rw [if_pos h, if_pos (by simpa [Covers, stop] using h), Option.map_map]
      congr 1
      funext old
      cases lastStyle runs i <;> rfl
    · rw [if_neg h, if_neg (by simpa [Covers, stop] using h)]
      simp

/-! ## Maximal runs -/

/-- A run of a painting of `length` characters that cannot be made longer. -/
structure IsMaximal (paint : Nat → Option Style) (length : Nat) (r : Run) : Prop where
  count_pos : 0 < r.count
  stop_le : r.stop ≤ length
  style_eq : ∀ i, r.Covers i → paint i = some r.style
  before_ne : ∀ i, i + 1 = r.start → paint i ≠ some r.style
  after_ne : r.stop < length → paint r.stop ≠ some r.style

/-- Two runs that are apart, or next to each other and of different styles. -/
def Separated (r q : Run) : Prop := r.stop < q.start ∨ r.stop = q.start ∧ r.style ≠ q.style

theorem Separated.stop_le {r q : Run} (h : r.Separated q) : r.stop ≤ q.start := by
  obtain h | ⟨h, -⟩ := h <;> omega

/-- Runs that are not empty, that keep apart from left to right, and that are a painting
together. -/
structure Decomposes (runs : List Run) (paint : Nat → Option Style) : Prop where
  count_pos : ∀ r ∈ runs, 0 < r.count
  separated : runs.Pairwise Separated
  covers_iff : ∀ i style, (∃ r ∈ runs, r.Covers i ∧ r.style = style) ↔ paint i = some style

namespace Decomposes

variable {runs : List Run} {paint : Nat → Option Style}

theorem congr {other : Nat → Option Style} (h : Decomposes runs paint)
    (same : ∀ i, other i = paint i) : Decomposes runs other :=
  ⟨h.count_pos, h.separated, fun i style => by rw [same, h.covers_iff]⟩

theorem paint_eq (h : Decomposes runs paint) {r : Run} (hr : r ∈ runs) {i : Nat}
    (hi : r.Covers i) : paint i = some r.style :=
  (h.covers_iff i r.style).mp ⟨r, hr, hi, rfl⟩

/-- Runs from left to right do not overlap, so the last one that covers an offset is the only
one. -/
theorem lastStyle_eq (h : Decomposes runs paint) (i : Nat) : lastStyle runs i = paint i := by
  cases hlast : lastStyle runs i with
  | some style => exact ((h.covers_iff i style).mp (lastStyle_eq_some hlast)).symm
  | none =>
    cases hpaint : paint i with
    | none => rfl
    | some style =>
      obtain ⟨r, hr, hcovers, -⟩ := (h.covers_iff i style).mpr hpaint
      exact absurd hcovers (lastStyle_eq_none.mp hlast r hr)

theorem start_lt (h : Decomposes runs paint) : runs.Pairwise fun r q => r.start < q.start := by
  refine h.separated.imp_of_mem fun {r q} hr _ hsep => ?_
  have hstop := hsep.stop_le
  have hpos := h.count_pos r hr
  rw [stop] at hstop
  omega

/-- Of two runs, one comes before the other. -/
theorem eq_or_separated (h : Decomposes runs paint) {r q : Run} (hr : r ∈ runs) (hq : q ∈ runs) :
    r = q ∨ r.Separated q ∨ q.Separated r := by
  refine List.Pairwise.forall_of_forall_of_flip
    (R := fun r q : Run => r = q ∨ r.Separated q ∨ q.Separated r) ?_ ?_ ?_ hr hq
  · exact fun _ _ => Or.inl rfl
  · exact h.separated.imp fun hsep => Or.inr (Or.inl hsep)
  · exact h.separated.imp fun hsep => Or.inr (Or.inr hsep)

theorem isMaximal {length : Nat} (h : Decomposes runs paint)
    (hlength : ∀ i, length ≤ i → paint i = none) {r : Run} (hr : r ∈ runs) :
    r.IsMaximal paint length := by
  have hpos := h.count_pos r hr
  have hin (i : Nat) (style : Style) (hi : paint i = some style) : i < length := by
    by_contra hle
    rw [hlength i (by omega)] at hi
    cases hi
  refine ⟨hpos, ?_, fun i hi => h.paint_eq hr hi, ?_, ?_⟩
  · have hlast := hin (r.stop - 1) r.style (h.paint_eq hr (by simp only [Covers, stop]; omega))
    omega
  · intro i hi hpaint
    obtain ⟨q, hq, hcovers, hstyle⟩ := (h.covers_iff i r.style).mpr hpaint
    simp only [Covers, stop] at hcovers
    -- `q` reaches up to `r` and has its style, but runs next to each other differ in style
    obtain rfl | hsep | hsep := h.eq_or_separated hr hq
    · omega
    · have := hsep.stop_le
      simp only [stop] at this
      omega
    · simp only [Separated, stop] at hsep
      obtain hlt | ⟨-, hne⟩ := hsep
      · omega
      · exact hne hstyle
  · intro _ hpaint
    obtain ⟨q, hq, hcovers, hstyle⟩ := (h.covers_iff r.stop r.style).mpr hpaint
    simp only [Covers, stop] at hcovers
    obtain rfl | hsep | hsep := h.eq_or_separated hr hq
    · omega
    · simp only [Separated, stop] at hsep
      obtain hlt | ⟨-, hne⟩ := hsep
      · omega
      · exact hne hstyle.symm
    · have := hsep.stop_le
      simp only [stop] at this
      omega

end Decomposes

namespace IsMaximal

variable {paint : Nat → Option Style} {length : Nat} {r q : Run} {i : Nat}

theorem start_le (hr : r.IsMaximal paint length) (hq : q.IsMaximal paint length)
    (hri : r.Covers i) (hqi : q.Covers i) (hstyle : r.style = q.style) : q.start ≤ r.start := by
  by_contra hlt
  refine hq.before_ne (q.start - 1) (by omega) ?_
  rw [← hstyle]
  apply hr.style_eq
  simp only [Covers, stop] at *
  omega

theorem stop_le_stop (hr : r.IsMaximal paint length) (hq : q.IsMaximal paint length)
    (hri : r.Covers i) (hqi : q.Covers i) (hstyle : r.style = q.style) : r.stop ≤ q.stop := by
  by_contra hlt
  have hle := hr.stop_le
  refine hq.after_ne (by omega) ?_
  rw [← hstyle]
  apply hr.style_eq
  simp only [Covers, stop] at *
  omega

/-- A painting counts only as far as the text goes. -/
theorem congr (hr : r.IsMaximal paint length) {paint' : Nat → Option Style}
    (h : ∀ i < length, paint i = paint' i) : r.IsMaximal paint' length := by
  have hpos := hr.count_pos
  have hle := hr.stop_le
  simp only [stop] at hle
  refine ⟨hpos, hr.stop_le, fun i hi => ?_, fun i hi => ?_, fun hstop => ?_⟩
  · rw [← h i (by simp only [Covers, stop] at hi; omega)]
    exact hr.style_eq i hi
  · rw [← h i (by omega)]
    exact hr.before_ne i hi
  · rw [← h r.stop hstop]
    exact hr.after_ne hstop

/-- Maximal runs that share an offset are the same run. -/
theorem eq (hr : r.IsMaximal paint length) (hq : q.IsMaximal paint length) (hri : r.Covers i)
    (hqi : q.Covers i) : r = q := by
  have hstyle : r.style = q.style := by
    have := (hr.style_eq i hri).symm.trans (hq.style_eq i hqi)
    simpa using this
  have h₁ := hr.start_le hq hri hqi hstyle
  have h₂ := hq.start_le hr hqi hri hstyle.symm
  have h₃ := hr.stop_le_stop hq hri hqi hstyle
  have h₄ := hq.stop_le_stop hr hqi hri hstyle.symm
  cases r
  cases q
  simp only [stop] at h₁ h₂ h₃ h₄ hstyle
  subst hstyle
  congr 1 <;> omega

end IsMaximal

/-- **The runs of a decomposition are the maximal runs** of the painting. -/
theorem Decomposes.mem_iff {runs : List Run} {paint : Nat → Option Style} {length : Nat}
    (h : Decomposes runs paint) (hlength : ∀ i, length ≤ i → paint i = none) (r : Run) :
    r ∈ runs ↔ r.IsMaximal paint length := by
  constructor
  · exact h.isMaximal hlength
  · intro hr
    have hcovers : r.Covers r.start := by
      have := hr.count_pos
      simp only [Covers, stop]
      omega
    obtain ⟨q, hq, hqcovers, -⟩ := (h.covers_iff r.start r.style).mpr (hr.style_eq _ hcovers)
    rw [hr.eq (h.isMaximal hlength hq) hcovers hqcovers]
    exact hq

/-! ## The runs of slots -/

/-- A list of slots as a painting whose first character has offset `start`. -/
def slotPaint (start : Nat) (slots : List (Option Style)) (i : Nat) : Option Style :=
  if start ≤ i then slots[i - start]?.join else none

theorem slotPaint_cons (start : Nat) (slot : Option Style) (slots : List (Option Style)) (i : Nat) :
    slotPaint start (slot :: slots) i =
      if i = start then slot else slotPaint (start + 1) slots i := by
  unfold slotPaint
  by_cases hi : i = start
  · simp [hi]
  · rw [if_neg hi]
    by_cases hlt : start + 1 ≤ i
    · rw [if_pos hlt, if_pos (by omega), show i - start = i - (start + 1) + 1 by omega,
        List.getElem?_cons_succ]
    · rw [if_neg hlt, if_neg (by omega)]

theorem start_le_of_mem_cons {runs : List Run} {start : Nat} {style : Style}
    (h : ∀ r ∈ runs, start < r.start) : ∀ r ∈ cons start style runs, start ≤ r.start := by
  intro r hr
  unfold cons at hr
  split at hr
  · obtain rfl := List.mem_singleton.mp hr
    exact Nat.le_refl start
  · split at hr
    · rcases List.mem_cons.mp hr with rfl | hr
      · exact Nat.le_refl start
      · exact Nat.le_of_lt (h r (by simp [hr]))
    · rcases List.mem_cons.mp hr with rfl | hr
      · exact Nat.le_refl start
      · exact Nat.le_of_lt (h r hr)

theorem exists_covers_cons (q : Run) (qs : List Run) (i : Nat) (style : Style) :
    (∃ r ∈ q :: qs, r.Covers i ∧ r.style = style) ↔
      (q.Covers i ∧ q.style = style) ∨ ∃ r ∈ qs, r.Covers i ∧ r.style = style := by
  simp only [List.mem_cons, exists_eq_or_imp]

/-- A run of one character in front of others that it keeps apart from. -/
theorem Decomposes.cons {runs : List Run} {paint : Nat → Option Style} {start : Nat}
    {style : Style} (h : Decomposes runs paint) (hpaint : paint start = none)
    (hsep : ∀ r ∈ runs, Separated ⟨start, 1, style⟩ r) :
    Decomposes (⟨start, 1, style⟩ :: runs) fun i => if i = start then some style else paint i := by
  refine ⟨?_, List.pairwise_cons.mpr ⟨hsep, h.separated⟩, fun i st => ?_⟩
  · simpa using h.count_pos
  · rw [exists_covers_cons, h.covers_iff]
    simp only [Covers, stop]
    by_cases hi : i = start
    · simp [hi, hpaint]
    · rw [if_neg hi, or_iff_right]
      omega

/-- A run that is made longer by the character before it. -/
theorem Decomposes.extend {q : Run} {qs : List Run} {paint : Nat → Option Style} {start : Nat}
    (h : Decomposes (q :: qs) paint) (hpaint : paint start = none) (hstart : q.start = start + 1) :
    Decomposes (⟨start, q.count + 1, q.style⟩ :: qs)
      fun i => if i = start then some q.style else paint i := by
  have hstop : start + (q.count + 1) = q.stop := by
    rw [stop]
    omega
  obtain ⟨hsepq, hseps⟩ := List.pairwise_cons.mp h.separated
  refine ⟨?_, List.pairwise_cons.mpr ⟨fun r hr => ?_, hseps⟩, fun i style => ?_⟩
  · intro r hr
    rcases List.mem_cons.mp hr with rfl | hr
    · exact Nat.succ_pos q.count
    · exact h.count_pos r (by simp [hr])
  · have hsep := hsepq r hr
    rw [Separated, ← hstop] at hsep
    exact hsep
  · have hiff := h.covers_iff i style
    rw [exists_covers_cons] at hiff ⊢
    by_cases hi : i = start
    · subst hi
      rw [hpaint] at hiff
      have hnone : ¬ ∃ r ∈ qs, r.Covers i ∧ r.style = style := fun hex => by
        simpa using hiff.mp (Or.inr hex)
      rw [if_pos rfl, or_iff_left hnone]
      simp [Covers, stop]
    · have hcovers : Covers ⟨start, q.count + 1, q.style⟩ i ↔ q.Covers i := by
        simp only [Covers, stop]
        omega
      rw [if_neg hi, hcovers, hiff]

theorem cons_decomposes {runs : List Run} {paint : Nat → Option Style} {start : Nat} {style : Style}
    (h : Decomposes runs paint) (hstart : ∀ r ∈ runs, start < r.start) :
    Decomposes (cons start style runs) fun i => if i = start then some style else paint i := by
  have hpaint : paint start = none := by
    rw [← h.lastStyle_eq, lastStyle_eq_none]
    intro r hr hcovers
    have := hstart r hr
    have := hcovers.1
    omega
  unfold cons
  split
  · exact h.cons hpaint (by simp)
  · next q qs =>
    split
    · next hmerge =>
      obtain ⟨hqstart, rfl⟩ := hmerge
      exact h.extend hpaint hqstart
    · next hmerge =>
      refine h.cons hpaint fun r hr => ?_
      have hlt := hstart q (by simp)
      rcases List.mem_cons.mp hr with rfl | hr
      · by_cases hnext : r.start = start + 1
        · exact Or.inr ⟨hnext.symm, fun hstyle => hmerge ⟨hnext, hstyle.symm⟩⟩
        · exact Or.inl (by simp only [stop]; omega)
      · have hpos := h.count_pos q (by simp)
        have hstop := ((List.pairwise_cons.mp h.separated).1 r hr).stop_le
        rw [stop] at hstop
        exact Or.inl (by simp only [stop]; omega)

theorem start_le_of_mem_ofSlots (start : Nat) (slots : List (Option Style)) :
    ∀ r ∈ ofSlots start slots, start ≤ r.start := by
  induction slots generalizing start with
  | nil => simp [ofSlots]
  | cons slot slots ih =>
    cases slot with
    | none =>
      intro r hr
      exact Nat.le_of_succ_le (ih (start + 1) r hr)
    | some style => exact start_le_of_mem_cons (ih (start + 1))

theorem ofSlots_decomposes (start : Nat) (slots : List (Option Style)) :
    Decomposes (ofSlots start slots) (slotPaint start slots) := by
  induction slots generalizing start with
  | nil => exact ⟨by simp [ofSlots], by simp [ofSlots], by simp [ofSlots, slotPaint]⟩
  | cons slot slots ih =>
    cases slot with
    | none =>
      refine (ih (start + 1)).congr fun i => ?_
      rw [slotPaint_cons]
      split
      · next hi =>
        rw [slotPaint, if_neg (by omega)]
      · rfl
    | some style =>
      have hstart := start_le_of_mem_ofSlots (start + 1) slots
      exact (cons_decomposes (ih (start + 1)) hstart).congr (slotPaint_cons start _ slots)

/-! ## Runs cut at the end of a document -/

theorem clip?_eq_some {limit : Nat} {r q : Run} (h : r.clip? limit = some q) :
    q.start = r.start ∧ q.stop = min r.stop limit ∧ q.style = r.style ∧ 0 < q.count := by
  unfold clip? at h
  split at h
  · next hlt =>
    obtain rfl := Option.some.inj h
    refine ⟨rfl, ?_, rfl, ?_⟩
    · rw [stop]
      simp only
      omega
    · simp only
      omega
  · cases h

theorem clip?_of_covers {limit : Nat} {r : Run} {i : Nat} (h : r.Covers i) (hi : i < limit) :
    ∃ q, r.clip? limit = some q := by
  refine ⟨_, if_pos ?_⟩
  have := h.1
  have := h.2
  omega

theorem Decomposes.clip {runs : List Run} {paint : Nat → Option Style} (h : Decomposes runs paint)
    (limit : Nat) :
    Decomposes (runs.filterMap (clip? limit)) fun i => if i < limit then paint i else none := by
  refine ⟨?_, ?_, fun i style => ?_⟩
  · intro q hq
    obtain ⟨r, -, hclip⟩ := List.mem_filterMap.mp hq
    exact (clip?_eq_some hclip).2.2.2
  · refine List.Pairwise.filterMap (clip? limit) ?_ h.separated
    intro r r' hsep q hq q' hq'
    obtain ⟨-, hstop, hstyle, -⟩ := clip?_eq_some hq
    obtain ⟨hstart', -, hstyle', -⟩ := clip?_eq_some hq'
    rw [Separated, hstop, hstart', hstyle, hstyle']
    obtain hlt | ⟨heq, hne⟩ := hsep
    · exact Or.inl (by omega)
    · by_cases hle : r.stop ≤ limit
      · exact Or.inr ⟨by omega, hne⟩
      · exact Or.inl (by omega)
  · constructor
    · rintro ⟨q, hq, hcovers, rfl⟩
      obtain ⟨r, hr, hclip⟩ := List.mem_filterMap.mp hq
      obtain ⟨hstart, hstop, hstyle, -⟩ := clip?_eq_some hclip
      rw [Covers, hstart, hstop] at hcovers
      rw [if_pos (by omega), hstyle]
      exact h.paint_eq hr ⟨hcovers.1, by omega⟩
    · intro hpaint
      split at hpaint
      · next hi =>
        obtain ⟨r, hr, hcovers, rfl⟩ := (h.covers_iff i style).mpr hpaint
        obtain ⟨q, hclip⟩ := clip?_of_covers hcovers hi
        obtain ⟨hstart, hstop, hstyle, -⟩ := clip?_eq_some hclip
        refine ⟨q, List.mem_filterMap.mpr ⟨r, hr, hclip⟩, ?_, hstyle⟩
        rw [Covers, hstart, hstop]
        have := hcovers.1
        have := hcovers.2
        omega
      · cases hpaint

end SourceEditor.Run

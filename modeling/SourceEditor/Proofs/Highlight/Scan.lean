import SourceEditor.Highlight.Cache
import SourceEditor.Proofs.Style.Runs
import SourceEditor.Proofs.Update

/-!
# The pass over a cache

A cache is emptied and written to a document in one pass over its slots (`Cache.writeFrom`). What
comes of it can be said without the pass: the runs of the cache, as far as the document goes, are
written one after the other, and nothing is left in the cache. `Cache.reconcile_of_ok` says this of
every surface that takes the runs.
-/

namespace SourceEditor

namespace Run

/-- Slots without a style are passed over. -/
theorem ofSlots_none_cons (start : Nat) (slots : List (Option Style)) :
    ofSlots start (none :: slots) =
      ofSlots (start + 1 + (slots.takeWhile (· == none)).length)
        (slots.dropWhile (· == none)) := by
  rw [ofSlots]
  induction slots generalizing start with
  | nil => rfl
  | cons slot slots ih =>
    cases slot with
    | none =>
      rw [ofSlots, ih (start + 1)]
      simp only [List.takeWhile_cons, List.dropWhile_cons, beq_self_eq_true, if_true,
        List.length_cons]
      congr 1
      omega
    | some style => simp

/-- A character before runs that start later, or have another style, is a run of its own. -/
theorem cons_of_apart {start : Nat} {style : Style} {runs : List Run}
    (h : ∀ r ∈ runs.head?, r.start ≠ start + 1 ∨ r.style ≠ style) :
    cons start style runs = ⟨start, 1, style⟩ :: runs := by
  cases runs with
  | nil => rfl
  | cons r runs =>
    rw [cons, if_neg]
    rintro ⟨hstart, hstyle⟩
    exact (h r rfl).elim (· hstart) (· hstyle)

theorem style_of_mem_head?_cons {start : Nat} {style : Style} {runs : List Run} {r : Run}
    (h : r ∈ (cons start style runs).head?) : r.style = style := by
  unfold cons at h
  split at h
  · cases h
    rfl
  · split at h <;> cases h <;> rfl

/-- The first run reaches as far as the slots are equal. -/
theorem ofSlots_some_cons (start : Nat) (style : Style) (slots : List (Option Style)) :
    ofSlots start (some style :: slots) =
      ⟨start, (slots.takeWhile (· == some style)).length + 1, style⟩ ::
        ofSlots (start + 1 + (slots.takeWhile (· == some style)).length)
          (slots.dropWhile (· == some style)) := by
  induction slots generalizing start with
  | nil => rfl
  | cons slot slots ih =>
    rw [ofSlots]
    by_cases hslot : slot = some style
    · subst hslot
      simp only [ih, cons, true_and, if_true, List.takeWhile_cons, List.dropWhile_cons,
        beq_self_eq_true, List.length_cons]
      congr 2
      omega
    · have hne : (slot == some style) = false := beq_eq_false_iff_ne.mpr hslot
      rw [List.takeWhile_cons_of_neg (by simp [hne]), List.dropWhile_cons_of_neg (by simp [hne])]
      refine cons_of_apart fun r hr => ?_
      cases slot with
      | none =>
        -- the next run starts after a slot without a style
        have hle := start_le_of_mem_ofSlots (start + 2) slots r (List.mem_of_mem_head? hr)
        left
        omega
      | some other =>
        have hother : r.style = other := style_of_mem_head?_cons hr
        right
        rintro rfl
        exact hslot (congrArg some hother.symm)

end Run

namespace Cache

/-- The runs to be written to a document of `length` characters. -/
def runs (c : Cache) (length : Nat) : List Run :=
  (Run.ofSlots 0 c.slots).filterMap (Run.clip? length)

/-- The cache with nothing painted. -/
def drained (c : Cache) : Cache := { slots := List.replicate c.size none }

theorem clear_self (c : Cache) (start : Nat) : c.clear ⟨start, start⟩ = c := by
  rw [clear, Nat.sub_self, changeRange_zero]

theorem clear_clear (c : Cache) {start stop last : Nat} (h : start ≤ stop) (hlast : stop ≤ last) :
    (c.clear ⟨start, stop⟩).clear ⟨stop, last⟩ = c.clear ⟨start, last⟩ := by
  simp only [clear, mk.injEq]
  refine List.ext_getElem? fun i => ?_
  simp only [getElem?_changeRange]
  by_cases hback : stop ≤ i ∧ i < stop + (last - stop)
  · rw [if_pos hback, if_neg (by omega), if_pos (by omega)]
  · rw [if_neg hback]
    by_cases hfront : start ≤ i ∧ i < start + (stop - start)
    · rw [if_pos hfront, if_pos (by omega)]
    · rw [if_neg hfront, if_neg (by omega)]

theorem clear_all (c : Cache) : c.clear ⟨0, c.slots.length⟩ = c.drained := by
  simp only [clear, drained, size, mk.injEq]
  refine List.ext_getElem? fun i => ?_
  rw [getElem?_changeRange, List.getElem?_replicate]
  by_cases hi : i < c.slots.length
  · rw [if_pos (by omega), if_pos hi, List.getElem?_eq_getElem hi, Option.map_some]
  · rw [if_neg (by omega), if_neg hi, List.getElem?_eq_none (Nat.not_lt.mp hi)]

variable {D : Type} [Surface D]

/-- Writes runs to a document. -/
def writeRuns (runs : List Run) : Update D Unit :=
  runs.forM fun r => Surface.changeStyle r.start r.count r.style true

theorem writeRuns_cons {r : Run} {runs : List Run} {d t : D}
    (h : writeRuns (r :: runs) d = .ok () t) :
    ∃ d', Surface.changeStyle r.start r.count r.style true d = .ok () d' ∧
      writeRuns runs d' = .ok () t := by
  change (Surface.changeStyle r.start r.count r.style true >>= fun _ => writeRuns runs) d = _ at h
  cases hwrite : Surface.changeStyle r.start r.count r.style true d with
  | ok _ d' =>
    rw [Update.bind_of_ok hwrite] at h
    exact ⟨d', rfl, h⟩
  | error fault d' =>
    rw [Update.bind_of_error hwrite] at h
    cases h

/-- The pass over slots writes their runs and empties them. -/
theorem writeFrom_of_ok {length start : Nat} {slots : List (Option Style)} {c : Cache} {d t : D}
    (h : writeRuns ((Run.ofSlots start slots).filterMap (Run.clip? length)) d = .ok () t) :
    writeFrom length start slots (c, d) =
      .ok ((Run.ofSlots start slots).filterMap (Run.clip? length))
        (c.clear ⟨start, start + slots.length⟩, t) := by
  match slots with
  | [] =>
    cases h
    rw [writeFrom, List.length_nil, Nat.add_zero, clear_self]
    rfl
  | slot :: slots =>
    have hlength : (slots.takeWhile (· == slot)).length + (slots.dropWhile (· == slot)).length =
        slots.length := by
      rw [← List.length_append, List.takeWhile_append_dropWhile]
    generalize hstop : start + 1 + (slots.takeWhile (· == slot)).length = stop at *
    have hclear : (c.clear ⟨start, stop⟩).clear
        ⟨stop, stop + (slots.dropWhile (· == slot)).length⟩ =
          c.clear ⟨start, start + (slot :: slots).length⟩ := by
      rw [clear_clear c (by omega) (by omega), List.length_cons]
      congr 2
      omega
    rw [writeFrom, Update.modify_bind, hstop]
    cases slot with
    | none =>
      rw [Run.ofSlots_none_cons, hstop] at h ⊢
      rw [← hclear]
      exact writeFrom_of_ok h
    | some style =>
      have hcount : stop - start = (slots.takeWhile (· == some style)).length + 1 := by omega
      rw [Run.ofSlots_some_cons, hstop, ← hcount, List.filterMap_cons] at h ⊢
      rw [← hclear, Option.bind_some]
      cases hclip : Run.clip? length ⟨start, stop - start, style⟩ with
      | none =>
        rw [hclip] at h
        exact writeFrom_of_ok h
      | some run =>
        rw [hclip] at h
        obtain ⟨d', hwrite, hrest⟩ := writeRuns_cons h
        have hdocument : onDocument (Surface.changeStyle run.start run.count run.style true)
            (c.clear ⟨start, stop⟩, d) = .ok () (c.clear ⟨start, stop⟩, d') :=
          Update.on_of_ok hwrite
        simp only
        rw [Update.bind_of_ok hdocument, Update.bind_of_ok (writeFrom_of_ok hrest)]
        rfl
termination_by slots.length
decreasing_by all_goals exact Nat.lt_succ_of_le (List.dropWhile_sublist _).length_le

/-- **Writing a cache writes its runs under the lock and empties it**, on every surface that takes
them. -/
theorem reconcile_of_ok {c : Cache} {d locked written unlocked : D} {length : Nat}
    (hlock : Surface.lock d = .ok () locked) (hlength : Surface.length locked = length)
    (hwrite : writeRuns (c.runs length) locked = .ok () written)
    (hunlock : Surface.unlock written = .ok () unlocked) :
    reconcile (c, d) = .ok (c.runs length) (c.drained, unlocked) := by
  subst hlength
  have hlocked : onDocument Surface.lock (c, d) = .ok () (c, locked) := Update.on_of_ok hlock
  have hfrom := writeFrom_of_ok (c := c) hwrite
  rw [Nat.zero_add, clear_all] at hfrom
  rw [reconcile, Update.bind_of_ok hlocked, Update.get_bind]
  exact Update.lastly_of_ok hfrom (Update.on_of_ok hunlock)

end Cache

end SourceEditor

import SourceEditor.Document.Memory
import SourceEditor.Proofs.Highlight.Scan

/-!
# Documents in memory, operation by operation

An operation on a range inside the document completes, and these lemmas give the document that it
leaves. Writes under the lock are counted as such (`MemoryDocument.guarded_changeParagraph`,
`Cache.reconcile_eq`): they take the lock once and give it back.
-/

namespace SourceEditor

namespace MemoryDocument

variable {d : MemoryDocument} {offset count : Nat}

theorem checkRange_of_le (h : offset + count ≤ d.length) :
    checkRange offset count d = .ok () d := by
  rw [checkRange, Update.get_bind, Update.bind_of_ok (Update.rangeStop_of_le h d),
    if_neg (by omega), Update.pure_apply]

theorem checkRange_of_lt (h : d.length < offset + count) :
    ∃ fault, checkRange offset count d = .error fault d := by
  rw [checkRange, Update.get_bind]
  obtain ⟨-, hoverflow⟩ | hstop := Update.rangeStop_cases offset count d.length d
  · exact ⟨_, Update.bind_of_error hoverflow⟩
  · rw [Update.bind_of_ok hstop, if_pos h]
    exact ⟨_, rfl⟩

/-- Looking at a range changes nothing. -/
theorem checkRange_cases (offset count : Nat) (d : MemoryDocument) :
    checkRange offset count d = .ok () d ∨
      ∃ fault, checkRange offset count d = .error fault d := by
  rcases Nat.lt_or_ge d.length (offset + count) with hlt | hle
  · exact Or.inr (checkRange_of_lt hlt)
  · exact Or.inl (checkRange_of_le hle)

theorem setCaret_of_le {caret : Nat} (h : caret ≤ d.length) :
    setCaret caret d = .ok () { d with caret } := by
  rw [setCaret, Update.get_bind, if_pos h, Update.set_apply]

theorem insert_of_le (h : offset ≤ d.length) (text : List Char) :
    insert offset text d = .ok () (d.inserted offset text) := by
  rw [insert, Update.bind_of_ok (checkRange_of_le (by omega)), Update.modify_apply]

theorem remove_of_le (h : offset + count ≤ d.length) :
    remove offset count d = .ok () (d.removed offset count) := by
  rw [remove, Update.bind_of_ok (checkRange_of_le h), Update.modify_apply]

theorem countedWrites_of_pos (h : 0 < d.lockDepth) : d.countedWrites = d.unlockedWrites := by
  simp [countedWrites, isLocked, h]

/-- Runs inside the document, written under the lock. -/
theorem writeRuns_of_locked {runs : List Run} (hlock : 0 < d.lockDepth)
    (h : ∀ r ∈ runs, r.stop ≤ d.length) :
    Cache.writeRuns runs d = .ok ()
      { d with
        styles := Run.paintAll runs d.styles
        styleChanges := d.styleChanges + runs.length } := by
  induction runs generalizing d with
  | nil => rfl
  | cons r runs ih =>
    have hr : r.start + r.count ≤ d.length := h r (by simp)
    have hstyle : Style.change r.style true = fun _ => some r.style := by
      funext old
      cases old <;> rfl
    have hwrite : changeStyle r.start r.count r.style true d = .ok ()
        { d with
          styles := changeRange (fun _ => some r.style) r.start r.count d.styles
          styleChanges := d.styleChanges + 1 } := by
      rw [changeStyle, Update.bind_of_ok (checkRange_of_le hr), Update.modify_apply,
        countedWrites_of_pos hlock, hstyle]
    change (changeStyle r.start r.count r.style true >>= fun _ => Cache.writeRuns runs) d = _
    rw [Update.bind_of_ok hwrite, ih]
    · simp only [List.length_cons, Run.paintAll, List.foldl_cons, Nat.add_assoc, Nat.add_comm 1]
    · exact hlock
    · exact fun q hq => h q (by simp [hq])

theorem unlock_of_eq_succ {t : MemoryDocument} {depth : Nat} (h : t.lockDepth = depth + 1) :
    unlock t = .ok () { t with lockDepth := depth } := by
  have hlocked : t.isLocked = true := by simp [isLocked, h]
  rw [unlock, Update.get_bind, if_pos hlocked, Update.set_apply, h, Nat.add_sub_cancel]

/-- An update that keeps the lock is run between taking it and giving it back. -/
theorem guarded_of_ok {α : Type} {body : Update MemoryDocument α} {a : α} {t : MemoryDocument}
    (h : body { d with lockDepth := d.lockDepth + 1, lockCount := d.lockCount + 1 } = .ok a t)
    (hdepth : t.lockDepth = d.lockDepth + 1) :
    Surface.guarded body d = .ok a { t with lockDepth := d.lockDepth } :=
  Update.lastly_of_ok h (unlock_of_eq_succ hdepth)

/-- The lock is given back also when the update fails. -/
theorem guarded_of_error {α : Type} {body : Update MemoryDocument α} {fault : Fault}
    {t : MemoryDocument}
    (h : body { d with lockDepth := d.lockDepth + 1, lockCount := d.lockCount + 1 } =
      .error fault t)
    (hdepth : t.lockDepth = d.lockDepth + 1) :
    Surface.guarded body d = .error fault { t with lockDepth := d.lockDepth } :=
  Update.lastly_of_error h (unlock_of_eq_succ hdepth)

theorem guarded_changeParagraph (h : offset + count ≤ d.length) (tabSize : Nat) :
    Surface.guarded (Surface.changeParagraph offset count tabSize) d = .ok ()
      { d with
        tabSize := some tabSize
        lockCount := d.lockCount + 1
        paragraphChanges := d.paragraphChanges + 1 } := by
  have hbody : changeParagraph offset count tabSize
      { d with lockDepth := d.lockDepth + 1, lockCount := d.lockCount + 1 } = .ok ()
        { d with
          tabSize := some tabSize
          lockDepth := d.lockDepth + 1
          lockCount := d.lockCount + 1
          paragraphChanges := d.paragraphChanges + 1 } := by
    rw [changeParagraph, Update.bind_of_ok (checkRange_of_le (by exact h)), Update.modify_apply,
      countedWrites_of_pos (by exact Nat.succ_pos _)]
  exact guarded_of_ok hbody rfl

/-- Formatting keeps the locks, also when it fails. -/
theorem lockDepth_changeParagraph (offset count tabSize : Nat) (d : MemoryDocument) :
    ((changeParagraph offset count tabSize).final d).lockDepth = d.lockDepth := by
  rw [Update.final, changeParagraph]
  obtain hok | ⟨fault, herror⟩ := checkRange_cases offset count d
  · rw [Update.bind_of_ok hok]
    rfl
  · rw [Update.bind_of_error herror]

end MemoryDocument

namespace Cache

theorem stop_le_of_mem_runs (c : Cache) (length : Nat) : ∀ r ∈ c.runs length, r.stop ≤ length := by
  intro r hr
  obtain ⟨q, -, hclip⟩ := List.mem_filterMap.mp hr
  rw [(Run.clip?_eq_some hclip).2.1]
  omega

/-- The runs of a cache are written to the document under one lock, and the cache is emptied. -/
theorem reconcile_eq (c : Cache) (d : MemoryDocument) :
    reconcile (c, d) = .ok (c.runs d.length)
      (c.drained,
        { d with
          styles := Run.paintAll (c.runs d.length) d.styles
          lockCount := d.lockCount + 1
          styleChanges := d.styleChanges + (c.runs d.length).length }) := by
  have hlock : Surface.lock d =
      .ok () { d with lockDepth := d.lockDepth + 1, lockCount := d.lockCount + 1 } := rfl
  have hwrite := MemoryDocument.writeRuns_of_locked
    (d := { d with lockDepth := d.lockDepth + 1, lockCount := d.lockCount + 1 })
    (Nat.succ_pos _) (c.stop_le_of_mem_runs d.length)
  exact reconcile_of_ok hlock rfl hwrite (MemoryDocument.unlock_of_eq_succ rfl)

end Cache

end SourceEditor

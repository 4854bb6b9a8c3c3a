import SourceEditor.Document.Terminal
import SourceEditor.Proofs.Highlight.Painting

/-!
# Documents in memory, shown on a terminal

`MemoryDocument.shown` is the document on a terminal that shows a document in memory: each character
with its style, and the same caret, tab size, line count and messages. The operations of a terminal
document keep in step with those of the document that it shows, as long as they stay inside it. An
edit is the exception: it leaves the caret of a terminal document at a place of its own, until the
caret is set again.
-/

namespace SourceEditor

/-- A document as a terminal shows it. -/
def MemoryDocument.shown (d : MemoryDocument) : TerminalDocument where
  cells := List.zipWith Cell.mk d.chars d.styles
  caret := d.caret
  tabSize := d.tabSize
  lineCount := d.lineCount
  messages := d.messages

/-- A document in memory and one on a terminal hold the same. -/
structure MemoryDocument.ShownBy (d : MemoryDocument) (t : TerminalDocument) : Prop where
  chars_eq : t.cells.map Cell.char = d.chars
  styles_eq : t.cells.map Cell.style = d.styles
  caret_eq : t.caret = d.caret
  tabSize_eq : t.tabSize = d.tabSize
  lineCount_eq : t.lineCount = d.lineCount
  messages_eq : t.messages = d.messages

/-- A style is given to cells as it is given to styles. -/
theorem zipWith_changeRange (change : Option Style → Option Style) (start count : Nat)
    (chars : List Char) (styles : List (Option Style)) :
    List.zipWith Cell.mk chars (changeRange change start count styles) =
      changeRange (fun cell => { cell with style := change cell.style }) start count
        (List.zipWith Cell.mk chars styles) := by
  refine List.ext_getElem? fun i => ?_
  simp only [getElem?_changeRange, List.getElem?_zipWith]
  by_cases hi : start ≤ i ∧ i < start + count
  · simp only [if_pos hi]
    cases chars[i]? <;> cases styles[i]? <;> rfl
  · simp only [if_neg hi]

namespace TerminalDocument

variable {d : MemoryDocument} {offset count : Nat}

theorem length_shown (h : d.styles.length = d.chars.length) : d.shown.length = d.length := by
  simp [length, MemoryDocument.shown, MemoryDocument.length, h]

theorem shownBy_shown (h : d.styles.length = d.chars.length) : d.ShownBy d.shown := by
  have hcells : d.shown.cells = (d.chars.zip d.styles).map fun p => ⟨p.1, p.2⟩ :=
    (List.map_zip_eq_zipWith (f := fun p => Cell.mk p.1 p.2)).symm
  refine ⟨?_, ?_, rfl, rfl, rfl, rfl⟩
  · rw [hcells, List.map_map]
    exact List.map_fst_zip h.ge
  · rw [hcells, List.map_map]
    exact List.map_snd_zip h.le

theorem checkRange_of_le {t : TerminalDocument} (h : offset + count ≤ t.length) :
    checkRange offset count t = .ok (offset + count) t := by
  rw [checkRange, Update.get_bind, Update.bind_of_ok (Update.rangeStop_of_le h t), if_pos h]
  rfl

/-- Text is inserted into the document that is shown. -/
theorem insert_shown (hstyles : d.styles.length = d.chars.length) (h : offset ≤ d.length)
    (text : List Char) :
    ∃ caret, insert offset text d.shown =
      .ok () { (d.inserted offset text).shown with caret } := by
  have hcells : (d.inserted offset text).shown.cells =
      d.shown.cells.take offset ++ text.map (⟨·, none⟩) ++ d.shown.cells.drop offset := by
    have htext : List.zipWith Cell.mk text (List.replicate text.length none) =
        text.map (⟨·, none⟩) := by
      rw [← List.map_const', List.zipWith_map_right, List.zipWith_self]
    simp only [MemoryDocument.shown, MemoryDocument.inserted, List.take_zipWith,
      List.drop_zipWith]
    rw [List.zipWith_append (by simp [hstyles]), List.zipWith_append (by simp [hstyles]), htext]
  have hrange : offset + 0 ≤ d.shown.length := (length_shown hstyles).symm ▸ h
  rw [insert, Update.bind_of_ok (checkRange_of_le hrange), Update.modify_apply, ← hcells]
  exact ⟨_, rfl⟩

/-- Characters are removed from the document that is shown. -/
theorem remove_shown (hstyles : d.styles.length = d.chars.length) (h : offset + count ≤ d.length) :
    ∃ caret, remove offset count d.shown =
      .ok () { (d.removed offset count).shown with caret } := by
  have hcells : (d.removed offset count).shown.cells =
      d.shown.cells.take offset ++ d.shown.cells.drop (offset + count) := by
    simp only [MemoryDocument.shown, MemoryDocument.removed, List.take_zipWith,
      List.drop_zipWith]
    rw [List.zipWith_append (by simp [hstyles])]
  have hrange : offset + count ≤ d.shown.length := (length_shown hstyles).symm ▸ h
  rw [remove, Update.bind_of_ok (checkRange_of_le hrange), Update.modify_apply, ← hcells]
  exact ⟨_, rfl⟩

/-- A caret inside the document is put where it is wanted, wherever the caret was. -/
theorem setCaret_shown (hstyles : d.styles.length = d.chars.length) {caret : Nat}
    (h : caret ≤ d.length) (old : Nat) :
    setCaret caret { d.shown with caret := old } = .ok () { d.shown with caret } := by
  have hlength : TerminalDocument.length { d.shown with caret := old } = d.length :=
    length_shown hstyles
  rw [setCaret, Update.modify_apply, hlength, Nat.min_eq_left h]

/-- There is nothing to lock. -/
theorem guarded_eq {α : Type} (body : Update TerminalDocument α) (t : TerminalDocument) :
    Surface.guarded body t = body t := by
  change Update.lastly body (pure ()) t = body t
  rw [Update.lastly]
  cases body t <;> rfl

/-- Runs inside the document that is shown. -/
theorem writeRuns_shown {runs : List Run} (hstyles : d.styles.length = d.chars.length)
    (h : ∀ r ∈ runs, r.stop ≤ d.length) :
    Cache.writeRuns runs d.shown =
      .ok () { d with styles := Run.paintAll runs d.styles }.shown := by
  induction runs generalizing d with
  | nil => rfl
  | cons r runs ih =>
    have hr : r.start + r.count ≤ d.shown.length := length_shown hstyles ▸ h r (by simp)
    have hstyle : Style.change r.style true = fun _ => some r.style := by
      funext old
      cases old <;> rfl
    have hwrite : changeStyle r.start r.count r.style true d.shown = .ok ()
        { d with
          styles := changeRange (fun _ => some r.style) r.start r.count d.styles }.shown := by
      rw [changeStyle, Update.bind_of_ok (checkRange_of_le hr), Update.modify_apply, hstyle]
      simp only [MemoryDocument.shown, zipWith_changeRange]
    change (changeStyle r.start r.count r.style true >>= fun _ => Cache.writeRuns runs) _ = _
    rw [Update.bind_of_ok hwrite]
    exact ih ((length_changeRange _ _ _).trans hstyles) fun q hq => h q (by simp [hq])

end TerminalDocument

/-- The runs of a cache are written to the document that is shown, and the cache is emptied. -/
theorem Cache.reconcile_shown (c : Cache) {d : MemoryDocument}
    (hstyles : d.styles.length = d.chars.length) :
    reconcile (c, d.shown) = .ok (c.runs d.length)
      (c.drained, { d with styles := Run.paintAll (c.runs d.length) d.styles }.shown) := by
  have hlength : Surface.length d.shown = d.length := TerminalDocument.length_shown hstyles
  exact reconcile_of_ok rfl hlength
    (TerminalDocument.writeRuns_shown hstyles (c.stop_le_of_mem_runs d.length)) rfl

end SourceEditor

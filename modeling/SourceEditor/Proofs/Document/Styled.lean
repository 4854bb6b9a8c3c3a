import SourceEditor.Document.Terminal
import SourceEditor.Proofs.Document.Memory
import SourceEditor.Proofs.Text.Zipper

/-!
# Documents in memory are styled texts

A document in memory keeps its characters in one list and their styles in another, with a caret and
some counters beside them. It behaves as a single list of cells with a caret in it, a `StyledText`,
on which write locks are held.

`Operation.effect?` says what an operation makes of a styled text, and when it is refused. A
document follows it step by step: what is applied completes (`perform_of_effect?`), and what is
refused fails (`perform_of_refused`). A failed operation leaves the document as it was. Only the
guards around it show, since each of them has counted one lock more, but the lock itself is given
back.

The one operation that can take a lock away from the guard around it is `unlock`. So the two steps
under a guard are about `unlock` first (`perform_of_isUnlock`), and then about everything else,
which leaves the guard its lock (`locks_le_of_effect?`).
-/

namespace SourceEditor

/-- A list with a caret whose elements are changed according to their place. -/
def Zipper.mapIdx {α : Type} (f : Nat → α → α) (z : Zipper α) : Zipper α where
  before := z.before.mapIdx f
  after := z.after.mapIdx fun i => f (i + z.before.length)

namespace Zipper

variable {α : Type} (f : Nat → α → α) (z : Zipper α)

theorem toList_mapIdx : (z.mapIdx f).toList = z.toList.mapIdx f :=
  List.mapIdx_append.symm

theorem caret_mapIdx : (z.mapIdx f).caret = z.caret :=
  List.length_mapIdx

end Zipper

/-- A text with a style for each character and a caret, and how many write locks are held on it. -/
structure StyledText where
  cells : Zipper Cell
  locks : Nat
  deriving DecidableEq, Repr

namespace StyledText

/-- A text without styles, with the caret at its start and no lock. -/
def ofText (text : List Char) : StyledText := ⟨⟨[], text.map (⟨·, none⟩)⟩, 0⟩

/-- The text with some cells in another style. -/
def restyle (offset count : Nat) (change : Option Style → Option Style) (s : StyledText) :
    StyledText :=
  { s with
    cells := s.cells.mapIdx fun i cell =>
      if offset ≤ i ∧ i < offset + count then { cell with style := change cell.style } else cell }

/-- The text after one lock is given back, if there is one. -/
def release? (s : StyledText) : Option StyledText :=
  if s.locks = 0 then none else some { s with locks := s.locks - 1 }

end StyledText

namespace MemoryDocument

/-! ## Operations -/

/-- Something that can be asked of a document. -/
inductive Operation where
  | setCaret (caret : Nat)
  | insert (offset : Nat) (text : List Char)
  | remove (offset count : Nat)
  | changeStyle (offset count : Nat) (style : Style) (replace : Bool)
  | changeParagraph (offset count tabSize : Nat)
  | lock
  | unlock
  | setLineCount (count : Nat)
  | message (text : String)
  /-- An operation under a write guard. -/
  | guarded (body : Operation)
  deriving DecidableEq, Repr

/-- Carries out an operation. -/
def perform : Operation → Update MemoryDocument Unit
  | .setCaret caret => setCaret caret
  | .insert offset text => insert offset text
  | .remove offset count => remove offset count
  | .changeStyle offset count style replace => changeStyle offset count style replace
  | .changeParagraph offset count tabSize => changeParagraph offset count tabSize
  | .lock => lock
  | .unlock => unlock
  | .setLineCount count => setLineCount count
  | .message text => message text
  | .guarded body => Surface.guarded (perform body)

/-- Carries out operations one after the other, those that fail included. -/
def run (operations : List Operation) (d : MemoryDocument) : MemoryDocument :=
  operations.foldl (fun d operation => (perform operation).final d) d

namespace Operation

/-- The style that a character gets: the new one alone if it is to replace the old one, or if there
is no old one. Otherwise the two are layered. The colors of the new one win where it has them, and
every attribute that one of them has is there. -/
def layered (style : Style) (replace : Bool) : Option Style → Option Style
  | none => some style
  | some old =>
    if replace then some style
    else
      some
        { foreground := if style.foreground = none then old.foreground else style.foreground
          background := if style.background = none then old.background else style.background
          bold := style.bold || old.bold
          italic := style.italic || old.italic
          underline := style.underline || old.underline }

/-- What an operation makes of a styled text, unless it is refused. -/
def effect? : Operation → StyledText → Option StyledText
  | .setCaret caret, s =>
    if caret ≤ s.cells.length then some { s with cells := s.cells.setCaret caret } else none
  | .insert offset text, s =>
    if offset ≤ s.cells.length then
      some { s with cells := s.cells.insert offset (text.map (⟨·, none⟩)) }
    else none
  | .remove offset count, s =>
    if offset + count ≤ s.cells.length then some { s with cells := s.cells.remove offset count }
    else none
  | .changeStyle offset count style replace, s =>
    if offset + count ≤ s.cells.length then some (s.restyle offset count (layered style replace))
    else none
  | .changeParagraph offset count _, s =>
    if offset + count ≤ s.cells.length then some s else none
  | .lock, s => some { s with locks := s.locks + 1 }
  | .unlock, s => s.release?
  | .setLineCount _, s => some s
  | .message _, s => some s
  | .guarded body, s =>
    (effect? body { s with locks := s.locks + 1 }).bind StyledText.release?

/-- How many guards are around an operation. -/
def guards : Operation → Nat
  | .guarded body => guards body + 1
  | _ => 0

/-- Whether an operation gives back a lock, under guards or not. -/
def isUnlock : Operation → Bool
  | .unlock => true
  | .guarded body => isUnlock body
  | _ => false

/-- Whether an operation changes attributes at a time when no lock is held. -/
def isUnlockedWrite (locks : Nat) : Operation → Bool
  | .changeStyle _ _ _ _ | .changeParagraph _ _ _ => locks == 0
  | .guarded body => isUnlockedWrite (locks + 1) body
  | _ => false

end Operation

/-- A document in memory holds a styled text. -/
structure Holds (d : MemoryDocument) (s : StyledText) : Prop where
  chars_eq : d.chars = s.cells.toList.map Cell.char
  styles_eq : d.styles = s.cells.toList.map Cell.style
  caret_eq : d.caret = s.cells.caret
  lockDepth_eq : d.lockDepth = s.locks

variable {d e : MemoryDocument} {s t : StyledText} {operation : Operation} {offset count : Nat}

/-! ## Edits and styles -/

namespace Holds

theorem length_eq (h : Holds d s) : d.length = s.cells.length := by
  rw [length, h.chars_eq, List.length_map, Zipper.length]

theorem setCaret (h : Holds d s) {caret : Nat} (hcaret : caret ≤ s.cells.length) :
    Holds { d with caret } { s with cells := s.cells.setCaret caret } where
  chars_eq := by rw [Zipper.toList_setCaret, h.chars_eq]
  styles_eq := by rw [Zipper.toList_setCaret, h.styles_eq]
  caret_eq := (Zipper.caret_setCaret s.cells hcaret).symm
  lockDepth_eq := h.lockDepth_eq

theorem inserted (h : Holds d s) (offset : Nat) (text : List Char) :
    Holds (d.inserted offset text)
      { s with cells := s.cells.insert offset (text.map (⟨·, none⟩)) } where
  chars_eq := by
    simp only [MemoryDocument.inserted, h.chars_eq, Zipper.toList_insert, List.map_append,
      List.map_take, List.map_drop, List.map_map, Function.comp_def, List.map_id']
  styles_eq := by
    simp only [MemoryDocument.inserted, h.styles_eq, Zipper.toList_insert, List.map_append,
      List.map_take, List.map_drop, List.map_map, Function.comp_def, List.map_const']
  caret_eq := by rw [Zipper.caret_insert, List.length_map, ← h.caret_eq]; rfl
  lockDepth_eq := h.lockDepth_eq

theorem removed (h : Holds d s) (offset count : Nat) :
    Holds (d.removed offset count) { s with cells := s.cells.remove offset count } where
  chars_eq := by
    simp only [MemoryDocument.removed, h.chars_eq, Zipper.toList_remove, List.map_append,
      List.map_take, List.map_drop]
  styles_eq := by
    simp only [MemoryDocument.removed, h.styles_eq, Zipper.toList_remove, List.map_append,
      List.map_take, List.map_drop]
  caret_eq := by rw [Zipper.caret_remove, ← h.caret_eq]; rfl
  lockDepth_eq := h.lockDepth_eq

theorem restyled (h : Holds d s) (offset count : Nat) (change : Option Style → Option Style) :
    Holds { d with styles := changeRange change offset count d.styles }
      (s.restyle offset count change) where
  chars_eq := by
    refine List.ext_getElem? fun i => ?_
    simp only [StyledText.restyle, Zipper.toList_mapIdx, h.chars_eq, List.getElem?_map,
      List.getElem?_mapIdx, Option.map_map]
    congr 1
    funext cell
    simp only [Function.comp_apply]
    split <;> rfl
  styles_eq := by
    refine List.ext_getElem? fun i => ?_
    simp only [StyledText.restyle, Zipper.toList_mapIdx, h.styles_eq, getElem?_changeRange,
      List.getElem?_map, List.getElem?_mapIdx, Option.map_map]
    by_cases hi : offset ≤ i ∧ i < offset + count
    · simp only [if_pos hi, Function.comp_def]
    · simp only [if_neg hi, Function.comp_def]
  caret_eq := by rw [h.caret_eq, StyledText.restyle, Zipper.caret_mapIdx]
  lockDepth_eq := h.lockDepth_eq

/-- What is not part of the styled text may be anything. -/
theorem of_eq (h : Holds d s) (hchars : e.chars = d.chars) (hstyles : e.styles = d.styles)
    (hcaret : e.caret = d.caret) (hlocks : e.lockDepth = d.lockDepth) : Holds e s where
  chars_eq := hchars.trans h.chars_eq
  styles_eq := hstyles.trans h.styles_eq
  caret_eq := hcaret.trans h.caret_eq
  lockDepth_eq := hlocks.trans h.lockDepth_eq

/-! ## Locks -/

theorem locked (h : Holds d s) :
    Holds { d with lockDepth := d.lockDepth + 1, lockCount := d.lockCount + 1 }
      { s with locks := s.locks + 1 } where
  chars_eq := h.chars_eq
  styles_eq := h.styles_eq
  caret_eq := h.caret_eq
  lockDepth_eq := congrArg (· + 1) h.lockDepth_eq

theorem unlock (h : Holds d s) (hrelease : s.release? = some t) :
    MemoryDocument.unlock d = .ok () { d with lockDepth := d.lockDepth - 1 } ∧
      Holds { d with lockDepth := d.lockDepth - 1 } t := by
  obtain ⟨hzero, hsome⟩ := Option.ite_none_left_eq_some.mp hrelease
  cases hsome
  rw [← h.lockDepth_eq] at hzero
  obtain ⟨depth, hdepth⟩ := Nat.exists_eq_succ_of_ne_zero hzero
  refine ⟨?_, h.chars_eq, h.styles_eq, h.caret_eq, congrArg (· - 1) h.lockDepth_eq⟩
  rw [unlock_of_eq_succ hdepth, hdepth, Nat.succ_sub_one]

end Holds

theorem unlock_of_eq_zero (h : d.lockDepth = 0) : unlock d = .error .notLocked d := by
  have hlocked : d.isLocked = false := by simp [isLocked, h]
  rw [unlock, Update.get_bind, hlocked]
  rfl

/-- An operation under a guard runs between taking a lock and giving it back. -/
theorem guarded_eq_lastly (body : Update MemoryDocument Unit) (d : MemoryDocument) :
    Surface.guarded body d = Update.lastly body unlock
      { d with lockDepth := d.lockDepth + 1, lockCount := d.lockCount + 1 } :=
  rfl

/-- A lock is given back, under as many guards as there may be. -/
theorem perform_of_isUnlock (h : operation.isUnlock = true) (hpos : 0 < d.lockDepth) :
    perform operation d = .ok ()
      { d with
        lockDepth := d.lockDepth - 1
        lockCount := d.lockCount + operation.guards } := by
  induction operation generalizing d with
  | unlock =>
    obtain ⟨depth, hdepth⟩ := Nat.exists_eq_add_one_of_ne_zero (Nat.ne_of_gt hpos)
    rw [perform, unlock_of_eq_succ hdepth, hdepth]
    rfl
  | guarded body ih =>
    have hbody := ih (d := { d with lockDepth := d.lockDepth + 1, lockCount := d.lockCount + 1 }) h
      (Nat.succ_pos _)
    obtain ⟨depth, hdepth⟩ := Nat.exists_eq_add_one_of_ne_zero (Nat.ne_of_gt hpos)
    rw [perform, guarded_eq_lastly, Update.lastly_of_ok hbody (unlock_of_eq_succ hdepth), hdepth,
      Operation.guards]
    simp only [Nat.add_sub_cancel, Nat.add_assoc, Nat.add_comm 1]
  | _ => cases h

/-- Nothing but giving back a lock leaves fewer locks. -/
theorem locks_le_of_effect? (h : operation.isUnlock = false)
    (heffect : operation.effect? s = some t) : s.locks ≤ t.locks := by
  induction operation generalizing s t with
  | setCaret | insert | remove | changeStyle | changeParagraph =>
    obtain ⟨-, hsome⟩ := Option.ite_none_right_eq_some.mp heffect
    cases hsome
    exact Nat.le_refl _
  | lock =>
    cases heffect
    exact Nat.le_succ _
  | unlock => cases h
  | setLineCount | message =>
    cases heffect
    exact Nat.le_refl _
  | guarded body ih =>
    obtain ⟨u, hbody, hrelease⟩ := Option.bind_eq_some_iff.mp heffect
    obtain ⟨-, hsome⟩ := Option.ite_none_left_eq_some.mp hrelease
    have hle := ih h hbody
    cases hsome
    exact Nat.le_sub_one_of_lt hle

/-! ## One step -/

theorem Operation.change_eq_layered (style : Style) (replace : Bool) :
    style.change replace = layered style replace := by
  funext old
  cases old with
  | none => rfl
  | some old =>
    obtain ⟨foreground, background, bold, italic, underline⟩ := style
    cases replace with
    | true => rfl
    | false => cases foreground <;> cases background <;> rfl

theorem changeStyle_of_le (h : offset + count ≤ d.length) (style : Style) (replace : Bool) :
    changeStyle offset count style replace d = .ok ()
      { d with
        styles := changeRange (Operation.layered style replace) offset count d.styles
        styleChanges := d.styleChanges + 1
        unlockedWrites := d.countedWrites } := by
  rw [changeStyle, Update.bind_of_ok (checkRange_of_le h), Update.modify_apply,
    Operation.change_eq_layered]

theorem changeParagraph_of_le (h : offset + count ≤ d.length) (tabSize : Nat) :
    changeParagraph offset count tabSize d = .ok ()
      { d with
        tabSize := some tabSize
        paragraphChanges := d.paragraphChanges + 1
        unlockedWrites := d.countedWrites } := by
  rw [changeParagraph, Update.bind_of_ok (checkRange_of_le h), Update.modify_apply]

/-- How many writes without a lock an operation adds to those of a document. -/
theorem countedWrites_eq (h : Holds d s) :
    d.countedWrites = d.unlockedWrites + (s.locks == 0).toNat := by
  unfold countedWrites isLocked
  rw [h.lockDepth_eq]
  by_cases hlocks : s.locks = 0
  · simp [hlocks]
  · simp [hlocks, Nat.pos_of_ne_zero hlocks]

/-- An operation that is not refused completes, and the document holds what the operation makes of
the styled text. -/
theorem perform_of_effect? (h : Holds d s) (heffect : operation.effect? s = some t) :
    ∃ e, perform operation d = .ok () e ∧ Holds e t ∧
      e.unlockedWrites = d.unlockedWrites + (operation.isUnlockedWrite s.locks).toNat := by
  induction operation generalizing d s t with
  | setCaret caret =>
    obtain ⟨hle, hsome⟩ := Option.ite_none_right_eq_some.mp heffect
    cases hsome
    exact ⟨_, setCaret_of_le (h.length_eq ▸ hle), h.setCaret hle, rfl⟩
  | insert offset text =>
    obtain ⟨hle, hsome⟩ := Option.ite_none_right_eq_some.mp heffect
    cases hsome
    exact ⟨_, insert_of_le (h.length_eq ▸ hle) text, h.inserted offset text, rfl⟩
  | remove offset count =>
    obtain ⟨hle, hsome⟩ := Option.ite_none_right_eq_some.mp heffect
    cases hsome
    exact ⟨_, remove_of_le (h.length_eq ▸ hle), h.removed offset count, rfl⟩
  | changeStyle offset count style replace =>
    obtain ⟨hle, hsome⟩ := Option.ite_none_right_eq_some.mp heffect
    cases hsome
    exact ⟨_, changeStyle_of_le (h.length_eq ▸ hle) style replace,
      (h.restyled offset count _).of_eq rfl rfl rfl rfl, countedWrites_eq h⟩
  | changeParagraph offset count tabSize =>
    obtain ⟨hle, hsome⟩ := Option.ite_none_right_eq_some.mp heffect
    cases hsome
    exact ⟨_, changeParagraph_of_le (h.length_eq ▸ hle) tabSize, h.of_eq rfl rfl rfl rfl,
      countedWrites_eq h⟩
  | lock =>
    cases heffect
    exact ⟨_, rfl, h.locked, rfl⟩
  | unlock =>
    obtain ⟨hunlock, hholds⟩ := h.unlock heffect
    exact ⟨_, hunlock, hholds, rfl⟩
  | setLineCount count =>
    cases heffect
    exact ⟨_, rfl, h.of_eq rfl rfl rfl rfl, rfl⟩
  | message text =>
    cases heffect
    exact ⟨_, rfl, h.of_eq rfl rfl rfl rfl, rfl⟩
  | guarded body ih =>
    obtain ⟨u, hbody, hrelease⟩ := Option.bind_eq_some_iff.mp heffect
    obtain ⟨e, hok, hholds, hwrites⟩ := ih h.locked hbody
    obtain ⟨hunlock, hholds⟩ := hholds.unlock hrelease
    exact ⟨_, Update.lastly_of_ok hok hunlock, hholds, hwrites⟩

theorem setCaret_of_lt {caret : Nat} (h : d.length < caret) :
    setCaret caret d = .error (.documentCaretOutOfBounds caret) d := by
  rw [setCaret, Update.get_bind, if_neg (Nat.not_le_of_lt h), Update.throw_apply]

/-- What looks at a range first fails with the document as it is, if the range leaves the text. -/
theorem exists_error_of_checkRange (offset count : Nat) (h : Holds d s)
    {change : Unit → Update MemoryDocument Unit} {t : StyledText}
    (hrefused : (if offset + count ≤ s.cells.length then some t else none) = none) :
    ∃ fault, (checkRange offset count >>= change) d = .error fault d := by
  have hlt : d.length < offset + count := by
    rw [h.length_eq]
    by_contra hle
    rw [if_pos (Nat.le_of_not_lt hle)] at hrefused
    cases hrefused
  obtain ⟨fault, hfault⟩ := checkRange_of_lt hlt
  exact ⟨fault, Update.bind_of_error hfault⟩

/-- An operation that is refused fails. It changes nothing, but each guard around it has counted a
lock. -/
theorem perform_of_refused (h : Holds d s) (hrefused : operation.effect? s = none) :
    ∃ fault, perform operation d =
      .error fault { d with lockCount := d.lockCount + operation.guards } := by
  induction operation generalizing d s with
  | setCaret caret =>
    have hlt : d.length < caret := by
      rw [h.length_eq]
      by_contra hle
      rw [Operation.effect?, if_pos (Nat.le_of_not_lt hle)] at hrefused
      cases hrefused
    exact ⟨_, setCaret_of_lt hlt⟩
  | insert offset text => exact exists_error_of_checkRange offset 0 h hrefused
  | remove offset count => exact exists_error_of_checkRange offset count h hrefused
  | changeStyle offset count style replace =>
    exact exists_error_of_checkRange offset count h hrefused
  | changeParagraph offset count tabSize => exact exists_error_of_checkRange offset count h hrefused
  | unlock =>
    have hzero : s.locks = 0 := by
      by_contra hpos
      rw [Operation.effect?, StyledText.release?, if_neg hpos] at hrefused
      cases hrefused
    exact ⟨_, unlock_of_eq_zero (h.lockDepth_eq.trans hzero)⟩
  | lock | setLineCount | message => cases hrefused
  | guarded body ih =>
    have hcount : d.lockCount + 1 + body.guards = d.lockCount + (body.guards + 1) := by omega
    rw [perform, guarded_eq_lastly, Operation.guards, ← hcount]
    cases hbody : body.effect? { s with locks := s.locks + 1 } with
    | none =>
      obtain ⟨fault, hfault⟩ := ih h.locked hbody
      exact ⟨fault, Update.lastly_of_error hfault (unlock_of_eq_succ rfl)⟩
    | some u =>
      -- the body has taken the lock of the guard, so there is none to give back
      have hzero : u.locks = 0 := by
        by_contra hpos
        rw [Operation.effect?, hbody, Option.bind_some, StyledText.release?, if_neg hpos]
          at hrefused
        cases hrefused
      have hunlock : body.isUnlock = true := by
        by_contra hnot
        have hle := locks_le_of_effect? (Bool.eq_false_iff.mpr hnot) hbody
        exact Nat.not_succ_le_zero s.locks (hzero ▸ hle)
      have hok := perform_of_isUnlock
        (d := { d with lockDepth := d.lockDepth + 1, lockCount := d.lockCount + 1 }) hunlock
        (Nat.succ_pos _)
      obtain ⟨e, hok', hholds, -⟩ := perform_of_effect? h.locked hbody
      rw [hok] at hok'
      cases hok'
      have hdepth : d.lockDepth = 0 := hholds.lockDepth_eq.trans hzero
      exact ⟨_, Update.lastly_of_close_error hok (unlock_of_eq_zero hdepth)⟩

/-! ## Runs -/

/-- What operations make of a styled text; those that are refused are passed over. -/
def runStyled (operations : List Operation) (s : StyledText) : StyledText :=
  operations.foldl (fun s operation => (operation.effect? s).getD s) s

/-- How many operations of a run change attributes, and complete, while no lock is held. -/
def unlockedChanges : List Operation → StyledText → Nat
  | [], _ => 0
  | operation :: operations, s =>
    match operation.effect? s with
    | some t => (operation.isUnlockedWrite s.locks).toNat + unlockedChanges operations t
    | none => unlockedChanges operations s

/-- A document goes along with the styled text that it holds. -/
theorem Holds.run (h : Holds d s) (operations : List Operation) :
    Holds (run operations d) (runStyled operations s) ∧
      (MemoryDocument.run operations d).unlockedWrites =
        d.unlockedWrites + unlockedChanges operations s := by
  induction operations generalizing d s with
  | nil => exact ⟨h, rfl⟩
  | cons operation operations ih =>
    simp only [MemoryDocument.run, runStyled, List.foldl_cons, unlockedChanges] at ih ⊢
    cases heffect : operation.effect? s with
    | some t =>
      obtain ⟨e, hok, hholds, hwrites⟩ := perform_of_effect? h heffect
      obtain ⟨hrun, hcount⟩ := ih hholds
      rw [Update.final_of_ok hok]
      refine ⟨hrun, ?_⟩
      rw [hcount, hwrites, Nat.add_assoc]
    | none =>
      obtain ⟨fault, hfault⟩ := perform_of_refused h heffect
      rw [Update.final_of_error hfault]
      exact ih (h.of_eq rfl rfl rfl rfl)

/-- A document behaves as a styled text. -/
structure Follows (d : MemoryDocument) (s : StyledText) : Prop extends Holds d s where
  caret_le : d.caret ≤ d.length
  styles_length : d.styles.length = d.length
  styleAt?_eq : ∀ i, d.styleAt? i = s.cells.toList[i]?.bind Cell.style
  performs : ∀ operation t, operation.effect? s = some t →
    ∃ e, perform operation d = .ok () e ∧ Holds e t
  /-- What is refused changes nothing. Guards have counted their locks and given them back. -/
  fails : ∀ operation, operation.effect? s = none →
    ∃ fault, perform operation d =
      .error fault { d with lockCount := d.lockCount + operation.guards }

theorem Holds.follows (h : Holds d s) : Follows d s where
  toHolds := h
  caret_le := by
    rw [h.caret_eq, h.length_eq]
    exact s.cells.caret_le_length
  styles_length := by rw [h.styles_eq, List.length_map, h.length_eq, Zipper.length]
  styleAt?_eq i := by
    rw [styleAt?, h.styles_eq, List.getElem?_map]
    cases s.cells.toList[i]? <;> rfl
  performs _ _ heffect := by
    obtain ⟨e, hok, hholds, -⟩ := perform_of_effect? h heffect
    exact ⟨e, hok, hholds⟩
  fails _ hrefused := perform_of_refused h hrefused

theorem holds_ofText (text : List Char) : Holds (ofText text) (StyledText.ofText text) where
  chars_eq := by
    simp only [ofText, StyledText.ofText, Zipper.toList, List.nil_append, List.map_map,
      Function.comp_def, List.map_id']
  styles_eq := by
    simp only [ofText, StyledText.ofText, Zipper.toList, List.nil_append, List.map_map,
      Function.comp_def, List.map_const']
  caret_eq := rfl
  lockDepth_eq := rfl

/-- **A document in memory is one list of styled characters.** After any operations, those that
failed included, it behaves as the styled text that the operations make of the text it was opened
with. The writes that it has counted as unlocked are the changes of attributes that were made with
no lock held. -/
theorem follows_run (text : List Char) (operations : List Operation) :
    Follows (run operations (ofText text)) (runStyled operations (.ofText text)) ∧
      (run operations (ofText text)).unlockedWrites =
        unlockedChanges operations (.ofText text) := by
  obtain ⟨hholds, hwrites⟩ := (holds_ofText text).run operations
  refine ⟨hholds.follows, ?_⟩
  rw [hwrites, ofText, Nat.zero_add]

/-- Three characters in one style. Another style is laid over the second, where its color wins and
the rest is kept, and replaces the first on the third. The last change leaves the text. -/
theorem follows_run_layered :
    let old : Style :=
      { foreground := some (.ofNat 0xff0000), background := some (.ofNat 0x00ff00), bold := true }
    let new : Style := { foreground := some (.ofNat 0x0000ff), italic := true }
    let d := run
      [.changeStyle 0 3 old false, .guarded (.changeStyle 1 1 new false), .changeStyle 2 1 new true,
        .changeStyle 2 2 old true] (ofText ['a', 'b', 'c'])
    d.styles =
        [some old, some { old with foreground := new.foreground, italic := true }, some new] ∧
      d.unlockedWrites = 2 := by
  intro old new d
  obtain ⟨hfollows, hwrites⟩ := follows_run ['a', 'b', 'c']
    [.changeStyle 0 3 old false, .guarded (.changeStyle 1 1 new false), .changeStyle 2 1 new true,
      .changeStyle 2 2 old true]
  constructor
  · refine hfollows.styles_eq.trans ?_
    decide
  · refine hwrites.trans ?_
    decide

/-- A lock that is given back inside a guard leaves the guard with none. -/
example :
    perform (.guarded .unlock) (ofText ['a']) =
      .error .notLocked { ofText ['a'] with lockCount := 1 } :=
  rfl

end MemoryDocument

end SourceEditor

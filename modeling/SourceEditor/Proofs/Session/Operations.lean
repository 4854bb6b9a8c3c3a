import SourceEditor.Proofs.Session.Coherence

/-!
# What the operations do

For each operation of a coherent session over a document in memory: how it ends, and the session
that it leaves. Text can be changed in one way only. An edit is made, and recorded or taken from the
history, and the session comes out as `Session.committed`.

* `insert_cases`, `remove_cases`: there is nothing to insert or remove, the range leaves the text,
  or an edit is committed.
* `undo_eq`, `redo_eq`: the edit on top of a stack is committed.
* `Evolves` sums up the operations that record: the session is coherent afterwards, and either text
  and stacks are as before (`Quiet`), or one edit was recorded (`Records`).
-/

namespace SourceEditor

/-! ## Plans -/

theorem Delimiters.closer?_standard_ne_return (c : Char) :
    Delimiters.standard.closer? c ≠ some '\r' := by
  intro h
  obtain ⟨pair, hpair, hreturn⟩ := Option.map_eq_some_iff.mp h
  have hmem := List.mem_reverse.mp (List.mem_of_find?_eq_some hpair)
  have hall : ∀ pair ∈ Delimiters.standard.pairs, pair.2 ≠ '\r' := by decide
  exact hall pair hmem hreturn

/-- Only the tab depends on the options. -/
theorem Options.eq_of_policy {o : Options} {policy : EditPolicy} (h : o.policy = .ok policy) :
    policy = { tab := if o.indentWithSpaces then some o.tabSize else none } := by
  unfold Options.policy EditPolicy.expandingTabs at h
  split at h
  · next hspaces =>
    split at h
    · cases h
      rw [if_pos hspaces]
    · cases h
  · next hspaces =>
    cases h
    rw [if_neg hspaces]

theorem Options.delimiters_of_policy {o : Options} {policy : EditPolicy}
    (h : o.policy = .ok policy) : policy.delimiters = .standard := by
  rw [Options.eq_of_policy h]

namespace EditPolicy

theorem withoutReturns_eq (text : List Char) :
    withoutReturns text = text.filter (· ≠ '\r') :=
  List.filter_congr fun c _ => by simp [bne, beq_eq_decide]

theorem return_not_mem_withoutReturns (text : List Char) : '\r' ∉ withoutReturns text := by
  simp [withoutReturns]

theorem planChar_offset (policy : EditPolicy) (b : Buffer) (offset : Nat) (c : Char) :
    (policy.planChar b offset c).offset = offset := by
  unfold planChar
  simp only
  split
  · rfl
  · split <;> split <;> rfl

theorem planInsert_offset (policy : EditPolicy) (b : Buffer) (offset : Nat) (text : List Char) :
    (policy.planInsert b offset text).offset = offset := by
  unfold planInsert
  split
  · exact planChar_offset policy b offset _
  · rfl

theorem return_not_mem_planChar {policy : EditPolicy} (h : policy.delimiters = .standard)
    (b : Buffer) (offset : Nat) {c : Char} (hc : c ≠ '\r') :
    '\r' ∉ (policy.planChar b offset c).text := by
  unfold planChar
  simp only
  split
  · exact List.not_mem_nil
  · split
    · next closer hcloser =>
      have hcloser' : closer ≠ '\r' := by
        rintro rfl
        rw [h] at hcloser
        exact Delimiters.closer?_standard_ne_return c hcloser
      split <;> simp [hc.symm, hcloser'.symm]
    · split
      · split <;> simp [hc.symm]
      · simp [hc.symm]

/-- Carriage returns never get into a plan. -/
theorem return_not_mem_planInsert {policy : EditPolicy} (h : policy.delimiters = .standard)
    (b : Buffer) (offset : Nat) (text : List Char) :
    '\r' ∉ (policy.planInsert b offset text).text := by
  have hreturn := return_not_mem_withoutReturns text
  unfold planInsert
  split
  · next c hc =>
    rw [hc, List.mem_singleton] at hreturn
    exact return_not_mem_planChar h b offset (Ne.symm hreturn)
  · exact hreturn

theorem planRemove_offset (policy : EditPolicy) (b : Buffer) (offset count : Nat) :
    (policy.planRemove b offset count).offset = offset := by
  unfold planRemove
  split <;> rfl

/-- Only an opening delimiter with its partner behind it makes a removal longer, so that the longer
one lies inside the text as well. -/
theorem planRemove_cases (policy : EditPolicy) {b : Buffer} (hlength : b.length = b.text.length)
    (offset count : Nat) :
    (policy.planRemove b offset count).count = count ∨
      count = 1 ∧ (policy.planRemove b offset count).count = 2 ∧ offset + 2 ≤ b.length := by
  unfold planRemove
  split
  · next hpair =>
    obtain ⟨hcount, hpair⟩ := Bool.and_eq_true_iff.mp hpair
    obtain ⟨closer, -, hcloser⟩ := (Option.any_eq_true _ _).mp hpair
    have hlt : offset + 1 < b.text.length :=
      (List.getElem?_eq_some_iff.mp (beq_iff_eq.mp hcloser)).1
    exact Or.inr ⟨beq_iff_eq.mp hcount, rfl, by omega⟩
  · exact Or.inl rfl

end EditPolicy

namespace Session

variable {java : ExternalParser} {s t u : Session MemoryDocument}

/-! ## Insertion and removal -/

theorem finishEdit_eq (h : Aligned s) (e : Edit) :
    finishEdit java e s = .ok ()
      (refreshed java { s with history := s.history.record e } e.offset e.touchedStop) := by
  have hrecorded : Aligned { s with history := s.history.record e } := h.of_eq rfl rfl rfl rfl
  exact refresh_eq hrecorded e.offset e.touchedStop

/-- An edit that is made and recorded, and the caret moved in between. -/
theorem commit_eq (h : Aligned s) {e : Edit} {after : List Char}
    (he : e.Makes s.buffer.text after) {caret : Nat} (hcaret : caret ≤ after.length) :
    finishEdit java e ((s.edited e).caretAt caret) =
      .ok () (s.committed java e caret (s.history.record e)) :=
  finishEdit_eq (h.committed_middle he hcaret s.history) e

theorem apply_finishEdit_eq (h : Aligned s) {e : Edit} {after : List Char}
    (he : e.Makes s.buffer.text after) :
    (apply e >>= fun _ => finishEdit java e) s =
      .ok () (s.committed java e (e.caretAfter s.buffer.caret) (s.history.record e)) := by
  have hcaret : (s.edited e).caretAt (e.caretAfter s.buffer.caret) = s.edited e := by
    rw [← Buffer.caret_edited]
    exact (h.edited he).caretAt_caret
  rw [Update.bind_of_ok (apply_eq h he),
    ← commit_eq h he (he.caretAfter_le (h.length_eq ▸ h.caret_le)), hcaret]

section Insert

variable (java) {offset : Nat} {text : List Char} {plan : InsertPlan}

theorem not_isStep_of_ne_nil (h : plan.text ≠ []) : ¬ plan.isStep = true := by
  simp [InsertPlan.isStep, h]

/-- With nothing to insert, at most the caret moves. -/
theorem insert_of_nil (h : Aligned s) (hplan : s.policy.planInsert s.buffer offset text = plan)
    (hnil : plan.text = []) :
    ∃ caret ≤ s.buffer.length, insert java offset text s = .ok () (s.caretAt caret) := by
  have hstays : ∃ caret ≤ s.buffer.length,
      (pure () : Update (Session MemoryDocument) Unit) s = .ok () (s.caretAt caret) :=
    ⟨s.buffer.caret, h.caret_le, by rw [h.caretAt_caret, Update.pure_apply]⟩
  simp only [insert, Update.get_bind, hplan, hnil, ne_eq, not_true, if_false]
  split
  · split
    · exact ⟨_, Nat.min_le_right _ _, moveCaret_eq h _⟩
    · exact hstays
  · exact hstays

theorem insert_of_lt (hplan : s.policy.planInsert s.buffer offset text = plan)
    (hne : plan.text ≠ []) (hoffset : s.buffer.length < offset) :
    insert java offset text s = .error (.insertOutOfBounds offset s.buffer.length) s := by
  have hplace : plan.offset = offset := hplan ▸ s.policy.planInsert_offset s.buffer offset text
  simp only [insert, Update.get_bind, hplan, if_neg (not_isStep_of_ne_nil hne), if_pos hne, hplace]
  exact Update.bind_of_error (apply_insert_of_lt hoffset _)

/-- An insertion at the caret whose plan moves the caret. -/
theorem insert_of_moves (h : Aligned s) (hplan : s.policy.planInsert s.buffer offset text = plan)
    (hne : plan.text ≠ []) {after : List Char}
    (he : Edit.Makes ⟨.insert, offset, plan.text⟩ s.buffer.text after)
    (hmove : offset = s.buffer.caret ∧ plan.caretMove ≠ 0) :
    insert java offset text s = .ok () (s.committed java ⟨.insert, offset, plan.text⟩
      (min (Edit.caretAfter ⟨.insert, offset, plan.text⟩ s.buffer.caret + plan.caretMove).toNat
        after.length)
      (s.history.record ⟨.insert, offset, plan.text⟩)) := by
  have hplace : plan.offset = offset := hplan ▸ s.policy.planInsert_offset s.buffer offset text
  have hlength : (s.edited ⟨.insert, offset, plan.text⟩).buffer.length = after.length :=
    Buffer.length_edited he h.length_eq
  simp only [insert, Update.get_bind, hplan, if_neg (not_isStep_of_ne_nil hne), if_pos hne, hplace]
  rw [Update.bind_of_ok (apply_eq h he), if_pos hmove,
    Update.bind_of_ok (moveCaret_eq (h.edited he) plan.caretMove), hlength]
  exact commit_eq h he (Nat.min_le_right _ _)

/-- An insertion that only shifts the caret. -/
theorem insert_of_stays (h : Aligned s) (hplan : s.policy.planInsert s.buffer offset text = plan)
    (hne : plan.text ≠ []) {after : List Char}
    (he : Edit.Makes ⟨.insert, offset, plan.text⟩ s.buffer.text after)
    (hstays : ¬ (offset = s.buffer.caret ∧ plan.caretMove ≠ 0)) :
    insert java offset text s = .ok () (s.committed java ⟨.insert, offset, plan.text⟩
      (Edit.caretAfter ⟨.insert, offset, plan.text⟩ s.buffer.caret)
      (s.history.record ⟨.insert, offset, plan.text⟩)) := by
  have hplace : plan.offset = offset := hplan ▸ s.policy.planInsert_offset s.buffer offset text
  simp only [insert, Update.get_bind, hplan, if_neg (not_isStep_of_ne_nil hne), if_pos hne, hplace,
    if_neg hstays]
  exact apply_finishEdit_eq h he

/-- An insertion inside the text is committed. -/
theorem insert_of_makes (h : Aligned s) (hplan : s.policy.planInsert s.buffer offset text = plan)
    (hne : plan.text ≠ []) {after : List Char}
    (he : Edit.Makes ⟨.insert, offset, plan.text⟩ s.buffer.text after) :
    ∃ caret ≤ after.length, insert java offset text s =
      .ok () (s.committed java ⟨.insert, offset, plan.text⟩ caret
        (s.history.record ⟨.insert, offset, plan.text⟩)) := by
  by_cases hmove : offset = s.buffer.caret ∧ plan.caretMove ≠ 0
  · exact ⟨_, Nat.min_le_right _ _, insert_of_moves java h hplan hne he hmove⟩
  · exact ⟨_, he.caretAfter_le (h.length_eq ▸ h.caret_le),
      insert_of_stays java h hplan hne he hmove⟩

theorem insert_cases (h : Aligned s) (offset : Nat) (text : List Char)
    (hplan : s.policy.planInsert s.buffer offset text = plan) :
    (plan.text = [] ∧
        ∃ caret ≤ s.buffer.length, insert java offset text s = .ok () (s.caretAt caret)) ∨
      plan.text ≠ [] ∧
        (s.buffer.length < offset ∧ (∃ fault, insert java offset text s = .error fault s) ∨
          offset ≤ s.buffer.length ∧ ∃ after caret,
            Edit.Makes ⟨.insert, offset, plan.text⟩ s.buffer.text after ∧ caret ≤ after.length ∧
            insert java offset text s =
              .ok () (s.committed java ⟨.insert, offset, plan.text⟩ caret
                (s.history.record ⟨.insert, offset, plan.text⟩))) := by
  by_cases hnil : plan.text = []
  · exact Or.inl ⟨hnil, insert_of_nil java h hplan hnil⟩
  · refine Or.inr ⟨hnil, ?_⟩
    rcases Nat.lt_or_ge s.buffer.length offset with hlt | hle
    · exact Or.inl ⟨hlt, _, insert_of_lt java hplan hnil hlt⟩
    · have he := Edit.insert_makes (h.length_eq ▸ hle) plan.text
      obtain ⟨caret, hcaret, heq⟩ := insert_of_makes java h hplan hnil he
      exact Or.inr ⟨hle, _, caret, he, hcaret, heq⟩

end Insert

section Remove

variable (java) {offset count : Nat} {plan : RemovePlan}

theorem remove_of_zero (hplan : s.policy.planRemove s.buffer offset count = plan)
    (hzero : plan.count = 0) : remove java offset count s = .ok () s := by
  simp only [remove, Update.get_bind, hplan, if_neg (not_not.mpr hzero), Update.pure_apply]

theorem remove_of_lt (h : Aligned s) (hplan : s.policy.planRemove s.buffer offset count = plan)
    (hne : plan.count ≠ 0) (hstop : s.buffer.length < offset + plan.count) :
    ∃ fault, remove java offset count s = .error fault s := by
  have hplace : plan.offset = offset := hplan ▸ s.policy.planRemove_offset s.buffer offset count
  simp only [remove, Update.get_bind, hplan, if_pos hne, hplace]
  obtain ⟨-, hoverflow⟩ | hcounted :=
    Update.rangeStop_cases offset plan.count s.buffer.length s
  · exact ⟨_, Update.bind_of_error hoverflow⟩
  · obtain ⟨fault, hslice⟩ := Buffer.slice_of_lt (Nat.le_add_right offset _) (h.length_eq ▸ hstop)
    refine ⟨fault, ?_⟩
    rw [Update.bind_of_ok hcounted, hslice]
    rfl

/-- A removal inside the text is committed. -/
theorem remove_of_le (h : Aligned s) (hplan : s.policy.planRemove s.buffer offset count = plan)
    (hne : plan.count ≠ 0) (hstop : offset + plan.count ≤ s.buffer.length) {e : Edit}
    (he : e = ⟨.remove, offset, (s.buffer.text.drop offset).take plan.count⟩) :
    remove java offset count s =
      .ok () (s.committed java e (e.caretAfter s.buffer.caret) (s.history.record e)) := by
  have hplace : plan.offset = offset := hplan ▸ s.policy.planRemove_offset s.buffer offset count
  have hlength := h.length_eq
  subst he
  simp only [remove, Update.get_bind, hplan, if_pos hne, hplace]
  rw [Update.bind_of_ok (Update.rangeStop_of_le hstop s),
    Buffer.slice_of_le (Nat.le_add_right offset _) (hlength ▸ hstop), Nat.add_sub_cancel_left]
  exact apply_finishEdit_eq h (Edit.remove_makes (hlength ▸ hstop))

/-- A removal that takes a pair of delimiters fits into the text if and only if the one that was
asked for does. -/
theorem remove_cases (h : Aligned s) (offset count : Nat) :
    (count = 0 ∧ remove java offset count s = .ok () s) ∨
      0 < count ∧
        (s.buffer.length < offset + count ∧ (∃ fault, remove java offset count s = .error fault s) ∨
          offset + count ≤ s.buffer.length ∧ ∃ e after, e.Makes s.buffer.text after ∧
            e.text ≠ [] ∧ e.text ⊆ s.buffer.text ∧
            remove java offset count s =
              .ok () (s.committed java e (e.caretAfter s.buffer.caret) (s.history.record e))) := by
  have hplan := s.policy.planRemove_cases h.length_eq offset count
  by_cases hzero : (s.policy.planRemove s.buffer offset count).count = 0
  · exact Or.inl ⟨by omega, remove_of_zero java rfl hzero⟩
  · refine Or.inr ⟨by omega, ?_⟩
    by_cases hstop : offset + (s.policy.planRemove s.buffer offset count).count ≤ s.buffer.length
    · have hlength := h.length_eq
      refine Or.inr ⟨by omega, _, _, Edit.remove_makes (hlength ▸ hstop), ?_, ?_,
        remove_of_le java h rfl hzero hstop rfl⟩
      · rw [← List.length_pos_iff, List.length_take, List.length_drop]
        omega
      · exact fun c hc => List.mem_of_mem_drop (List.mem_of_mem_take hc)
    · exact Or.inl ⟨by omega, remove_of_lt java h rfl hzero (Nat.lt_of_not_le hstop)⟩

end Remove

theorem clear_of_nil (h : Aligned s) (hnil : s.buffer.text = []) : clear java s = .ok () s := by
  rw [clear, Update.get_bind, if_neg (mt h.not_isEmpty_iff.mp (not_not.mpr hnil)),
    Update.pure_apply]

/-- The whole text is removed as one edit. -/
theorem clear_of_ne_nil (h : Aligned s) (hne : s.buffer.text ≠ []) {e : Edit}
    (he : e = ⟨.remove, 0, s.buffer.text⟩) :
    clear java s = .ok ()
      (s.committed java e (e.caretAfter s.buffer.caret) (s.history.record e)) := by
  subst he
  rw [clear, Update.get_bind, if_pos (h.not_isEmpty_iff.mpr hne)]
  exact apply_finishEdit_eq h (Edit.remove_all_makes s.buffer.text)

/-! ## Taking back and making again -/

theorem replay_eq (h : Aligned s) {e : Edit} {after : List Char} (he : e.Makes s.buffer.text after)
    (history : History) :
    replay java e { s with history } =
      .ok () (s.committed java e e.touchedStop history) := by
  have hs : Aligned { s with history } := h.of_eq rfl rfl rfl rfl
  have hedited := hs.edited he
  have hlength := Buffer.length_edited he h.length_eq
  rw [replay, Update.bind_of_ok (apply_eq hs he),
    Update.bind_of_ok (setCaret_eq hedited (hlength ▸ he.touchedStop_le))]
  exact refresh_eq (h.committed_middle he he.touchedStop_le history) e.offset e.touchedStop

theorem undo_of_nil (h : s.history.undos = []) : undo java s = .ok () s := by
  rw [undo, Update.get_bind, History.takeUndo?, h]
  rfl

theorem redo_of_nil (h : s.history.redos = []) : redo java s = .ok () s := by
  rw [redo, Update.get_bind, History.takeRedo?, h]
  rfl

theorem undo_eq (h : Aligned s) {e : Edit} {rest : List Edit} (hundos : s.history.undos = e :: rest)
    {before : List Char} (he : e.inverse.Makes s.buffer.text before) :
    undo java s = .ok () (s.committed java e.inverse e.inverse.touchedStop
      { s.history with
        undos := rest
        redos := History.push s.history.limit e s.history.redos
        edited := true }) := by
  rw [undo, Update.get_bind, History.takeUndo?, hundos]
  exact replay_eq h he _

/-- The edit that was recorded last is taken back, if there is room for it in the history. -/
theorem undo_of_record (h : Aligned s) {history : History} {e : Edit}
    (hhistory : s.history = history.record e) (hlimit : 0 < history.limit) {before : List Char}
    (he : e.Makes before s.buffer.text) :
    ∃ t, undo java s = .ok () t ∧ t.buffer.text = before ∧
      t.buffer.caret = e.inverse.touchedStop := by
  obtain ⟨rest, hrest⟩ := History.exists_push_eq_cons hlimit e history.undos
  have hundos : s.history.undos = e :: rest := by
    rw [hhistory, History.record, hrest]
  exact ⟨_, undo_eq h hundos he.inverse, text_committed he.inverse _ _, rfl⟩

theorem redo_eq (h : Aligned s) {e : Edit} {rest : List Edit} (hredos : s.history.redos = e :: rest)
    {after : List Char} (he : e.Makes s.buffer.text after) :
    redo java s = .ok () (s.committed java e e.touchedStop
      { s.history with
        undos := History.push s.history.limit e s.history.undos
        redos := rest
        edited := true }) := by
  rw [redo, Update.get_bind, History.takeRedo?, hredos]
  exact replay_eq h he _

/-! ## The whole text, and the options -/

/-- Options, policy, language and history of two sessions are the same. -/
structure SameSettings (s t : Session MemoryDocument) : Prop where
  options_eq : t.options = s.options
  policy_eq : t.policy = s.policy
  language_eq : t.language = s.language
  history_eq : t.history = s.history

theorem SameSettings.trans (h : SameSettings s t) (h' : SameSettings t u) : SameSettings s u where
  options_eq := h'.options_eq.trans h.options_eq
  policy_eq := h'.policy_eq.trans h.policy_eq
  language_eq := h'.language_eq.trans h.language_eq
  history_eq := h'.history_eq.trans h.history_eq

theorem sameSettings_edited (s : Session MemoryDocument) (e : Edit) :
    SameSettings s (s.edited e) :=
  ⟨rfl, rfl, rfl, rfl⟩

theorem apply_insert_all_eq (h : Aligned s) (hnil : s.buffer.text = []) (text : List Char) :
    ∃ t, Aligned t ∧ t.buffer.text = text ∧ SameSettings s t ∧
      t.document.styles = List.replicate text.length none ∧
      (if text ≠ [] then apply ⟨.insert, 0, text⟩ else pure () :
        Update (Session MemoryDocument) Unit) s = .ok () t := by
  have hstyles : s.document.styles = [] := by
    rw [← List.length_eq_zero_iff, h.styles_length, hnil, List.length_nil]
  by_cases htext : text = []
  · exact ⟨s, h, hnil.trans htext.symm, ⟨rfl, rfl, rfl, rfl⟩, by simp [htext, hstyles],
      by simp [htext]⟩
  · have he : Edit.Makes ⟨.insert, 0, text⟩ s.buffer.text text :=
      hnil ▸ (Edit.remove_all_makes text).inverse
    refine ⟨s.edited _, h.edited he, Buffer.text_edited he, sameSettings_edited s _, ?_, ?_⟩
    · simp [edited, MemoryDocument.edited, MemoryDocument.inserted, hstyles]
    · rw [if_pos htext, apply_eq h he]

/-- The old text goes as one edit and the new one comes as one, without styles. -/
theorem replaceText_eq (h : Aligned s) (text : List Char) :
    ∃ t, Aligned t ∧ t.buffer.text = text ∧ SameSettings s t ∧
      t.document.styles = List.replicate text.length none ∧
      replaceText text s = .ok () t := by
  simp only [replaceText, Update.get_bind]
  by_cases hnil : s.buffer.text = []
  · rw [if_neg (mt h.not_isEmpty_iff.mp (not_not.mpr hnil))]
    exact apply_insert_all_eq h hnil text
  · have he := Edit.remove_all_makes s.buffer.text
    obtain ⟨t, ht, htext, hsame, hstyles, heq⟩ :=
      apply_insert_all_eq (h.edited he) (Buffer.text_edited he) text
    refine ⟨t, ht, htext, (sameSettings_edited s _).trans hsame, hstyles, ?_⟩
    rw [if_pos (h.not_isEmpty_iff.mpr hnil), Update.bind_of_ok (apply_eq h he), heq]

/-- A text that is highlighted and formatted as a whole is coherent. -/
theorem Aligned.coherent_refreshed_all (h : Aligned s) (hreturn : '\r' ∉ s.buffer.text)
    (hpolicy : s.options.policy = .ok s.policy) (hlimit : s.history.limit = s.options.undoLimit) :
    Coherent java (s.refreshed java 0 s.buffer.length) := by
  refine h.coherent_refreshed hreturn (Nat.le_refl _) (fun hne => Or.inr ?_) hpolicy hlimit
  rw [h.length_eq]
  exact List.length_pos_iff.mpr hne

/-- A session in which a text has just been loaded. It has the styles that the text is to have, and
no others. -/
structure Loaded (java : ExternalParser) (options : Options) (language : Option Language)
    (text : List Char) (s : Session MemoryDocument) : Prop extends Coherent java s where
  text_eq : s.buffer.text = text
  caret_eq_zero : s.buffer.caret = 0
  history_eq : s.history = { limit := options.undoLimit }
  options_eq : s.options = options
  language_eq : s.language = language
  tree_eq : s.tree = highlightTree java options language text
  styleAt?_eq : ∀ i < text.length,
    s.document.styleAt? i = SourceEditor.expectedStyle? java options language text i

/-- **Loading a text** never fails. The text is there without its carriage returns, and with it
nothing of what was there before but the options and the language. -/
theorem load_eq (h : Coherent java s) (text : List Char) :
    ∃ t, load java text s = .ok () t ∧
      Loaded java s.options s.language (EditPolicy.withoutReturns text) t := by
  obtain ⟨t, ht, htext, hsame, hstyles, heq⟩ :=
    replaceText_eq h.toAligned (EditPolicy.withoutReturns text)
  have hreset : Aligned { t.caretAt 0 with history := s.history.reset } :=
    (ht.caretAt (Nat.zero_le _)).of_eq rfl rfl rfl rfl
  have hcoherent : Coherent java
      (refreshed java { t.caretAt 0 with history := s.history.reset } 0 t.buffer.length) := by
    refine hreset.coherent_refreshed_all ?_ ?_ ?_
    · exact htext ▸ EditPolicy.return_not_mem_withoutReturns text
    · change t.options.policy = .ok t.policy
      rw [hsame.options_eq, hsame.policy_eq, h.policy_eq]
    · change s.history.limit = t.options.undoLimit
      rw [hsame.options_eq, h.limit_eq]
  refine ⟨_, ?_, hcoherent, htext, rfl, ?_, hsame.options_eq, hsame.language_eq, ?_, ?_⟩
  · rw [load, Update.bind_of_ok heq, Update.bind_of_ok (setCaret_eq ht (Nat.zero_le _)), onHistory,
      Update.modify_bind, Update.get_bind, ← refresh_eq hreset, ← hsame.history_eq]
    rfl
  · rw [← h.limit_eq]
    rfl
  · change highlightTree java t.options t.language t.buffer.text = _
    rw [hsame.options_eq, hsame.language_eq, htext]
  · intro i hi
    have hunstyled : t.document.styleAt? i = none := by
      rw [MemoryDocument.styleAt?, hstyles, List.getElem?_replicate]
      split <;> rfl
    have hexpected : t.expectedStyle? java i = SourceEditor.expectedStyle? java s.options s.language
        (EditPolicy.withoutReturns text) i := by
      rw [expectedStyle?, hsame.options_eq, hsame.language_eq, htext]
    rw [← htext, ← ht.length_eq] at hi
    refine (hreset.styleAt?_refreshed hi 0 _).trans ?_
    rw [← hexpected]
    exact (congrArg _ hunstyled).trans Option.or_none

theorem reload_of_error {options : Options} {fault : Fault} (h : options.policy = .error fault) :
    reload java options s = .error fault s := by
  rw [reload, h]
  rfl

theorem reload_eq (h : Aligned s) {options : Options} {policy : EditPolicy}
    (hpolicy : options.policy = .ok policy) :
    reload java options s = .ok () (refreshed java
      { s with policy, options, history := s.history.setLimit options.undoLimit }
      0 s.buffer.length) := by
  have hnew : Aligned { s with policy, options, history := s.history.setLimit options.undoLimit } :=
    h.of_eq rfl rfl rfl rfl
  rw [← refresh_eq hnew, reload, hpolicy]
  rfl

/-- **Taking new options** fails without effect if they make no policy. Otherwise the text stays,
and both stacks are cut down to the new limit. -/
theorem reload_cases (h : Coherent java s) (options : Options) :
    (∃ fault, options.policy = .error fault ∧ reload java options s = .error fault s) ∨
      ∃ t, reload java options s = .ok () t ∧ Coherent java t ∧ t.options = options ∧
        t.buffer.text = s.buffer.text ∧ t.history = s.history.setLimit options.undoLimit := by
  cases hpolicy : options.policy with
  | error fault =>
    left
    exact ⟨fault, rfl, reload_of_error hpolicy⟩
  | ok policy =>
    right
    have hnew : Aligned
        { s with policy, options, history := s.history.setLimit options.undoLimit } :=
      h.toAligned.of_eq rfl rfl rfl rfl
    exact ⟨_, reload_eq h.toAligned hpolicy, hnew.coherent_refreshed_all h.no_return hpolicy rfl,
      rfl, rfl, rfl⟩

/-! ## Operations that record or leave the text alone -/

/-- Text and stacks are as before. -/
structure Quiet (s t : Session MemoryDocument) : Prop where
  text_eq : t.buffer.text = s.buffer.text
  undos_eq : t.history.undos = s.history.undos
  redos_eq : t.history.redos = s.history.redos
  limit_eq : t.history.limit = s.history.limit

/-- An edit was made and recorded. -/
structure Records (s : Session MemoryDocument) (e : Edit) (t : Session MemoryDocument) : Prop where
  makes : e.Makes s.buffer.text t.buffer.text
  text_ne_nil : e.text ≠ []
  undos_eq : t.history.undos = History.push s.history.limit e s.history.undos
  redos_eq : t.history.redos = []
  limit_eq : t.history.limit = s.history.limit

/-- A session comes out of another by at most one edit, which is recorded. -/
def Evolves (java : ExternalParser) (s t : Session MemoryDocument) : Prop :=
  Coherent java t ∧ (Quiet s t ∨ ∃ e, Records s e t)

theorem Quiet.refl (s : Session MemoryDocument) : Quiet s s := ⟨rfl, rfl, rfl, rfl⟩

theorem Quiet.trans (h : Quiet s t) (h' : Quiet t u) : Quiet s u where
  text_eq := h'.text_eq.trans h.text_eq
  undos_eq := h'.undos_eq.trans h.undos_eq
  redos_eq := h'.redos_eq.trans h.redos_eq
  limit_eq := h'.limit_eq.trans h.limit_eq

theorem Quiet.records (h : Quiet s t) {e : Edit} (h' : Records t e u) : Records s e u where
  makes := h.text_eq ▸ h'.makes
  text_ne_nil := h'.text_ne_nil
  undos_eq := by rw [h'.undos_eq, h.undos_eq, h.limit_eq]
  redos_eq := h'.redos_eq
  limit_eq := h'.limit_eq.trans h.limit_eq

theorem Records.quiet {e : Edit} (h : Records s e t) (h' : Quiet t u) : Records s e u where
  makes := h'.text_eq ▸ h.makes
  text_ne_nil := h.text_ne_nil
  undos_eq := h'.undos_eq.trans h.undos_eq
  redos_eq := h'.redos_eq.trans h.redos_eq
  limit_eq := h'.limit_eq.trans h.limit_eq

theorem Coherent.evolves (h : Coherent java s) : Evolves java s s := ⟨h, Or.inl (Quiet.refl s)⟩

theorem Quiet.evolves (h : Quiet s t) (h' : Evolves java t u) : Evolves java s u := by
  obtain ⟨hcoherent, hquiet | ⟨e, hrecords⟩⟩ := h'
  · exact ⟨hcoherent, Or.inl (h.trans hquiet)⟩
  · exact ⟨hcoherent, Or.inr ⟨e, h.records hrecords⟩⟩

theorem Evolves.quiet (h : Evolves java s t) (hcoherent : Coherent java u) (h' : Quiet t u) :
    Evolves java s u := by
  obtain ⟨-, hquiet | ⟨e, hrecords⟩⟩ := h
  · exact ⟨hcoherent, Or.inl (hquiet.trans h')⟩
  · exact ⟨hcoherent, Or.inr ⟨e, hrecords.quiet h'⟩⟩

/-- An edit that is committed and recorded. -/
theorem Coherent.evolves_committed (h : Coherent java s) {e : Edit} {after : List Char}
    (he : e.Makes s.buffer.text after) (hne : e.text ≠ []) (hreturn : '\r' ∉ e.text) {caret : Nat}
    (hcaret : caret ≤ after.length) :
    Evolves java s (s.committed java e caret (s.history.record e)) := by
  have hafter : '\r' ∉ after := fun hc =>
    (he.mem_or_mem hc).elim h.no_return hreturn
  refine ⟨h.committed he hne hafter hcaret rfl, Or.inr ⟨e, ?_, hne, rfl, rfl, rfl⟩⟩
  rw [text_committed he]
  exact he

theorem Coherent.caretAt (h : Coherent java s) {caret : Nat} (hcaret : caret ≤ s.buffer.length) :
    Coherent java (s.caretAt caret) :=
  h.of_aligned (h.toAligned.caretAt hcaret) rfl rfl rfl rfl rfl rfl rfl rfl

theorem quiet_caretAt (s : Session MemoryDocument) (caret : Nat) : Quiet s (s.caretAt caret) :=
  ⟨rfl, rfl, rfl, rfl⟩

theorem Coherent.evolves_insert (h : Coherent java s) (offset : Nat) (text : List Char) :
    Evolves java s ((insert java offset text).final s) := by
  have hreturn : '\r' ∉ (s.policy.planInsert s.buffer offset text).text :=
    EditPolicy.return_not_mem_planInsert (Options.delimiters_of_policy h.policy_eq) _ _ _
  obtain ⟨-, caret, hcaret, heq⟩ | ⟨hne, ⟨-, fault, heq⟩ | ⟨-, after, caret, he, hcaret, heq⟩⟩ :=
    insert_cases java h.toAligned offset text rfl
  · rw [Update.final_of_ok heq]
    exact ⟨h.caretAt hcaret, Or.inl (quiet_caretAt s caret)⟩
  · rw [Update.final_of_error heq]
    exact h.evolves
  · rw [Update.final_of_ok heq]
    exact h.evolves_committed he hne hreturn hcaret

theorem Coherent.evolves_remove (h : Coherent java s) (offset count : Nat) :
    Evolves java s ((remove java offset count).final s) := by
  obtain ⟨-, heq⟩ | ⟨-, ⟨-, fault, heq⟩ | ⟨-, e, after, he, hne, hsubset, heq⟩⟩ :=
    remove_cases java h.toAligned offset count
  · rw [Update.final_of_ok heq]
    exact h.evolves
  · rw [Update.final_of_error heq]
    exact h.evolves
  · rw [Update.final_of_ok heq]
    refine h.evolves_committed he hne ?_ (he.caretAfter_le (h.length_eq ▸ h.caret_le))
    exact fun hc => h.no_return (hsubset hc)

theorem Coherent.evolves_clear (h : Coherent java s) : Evolves java s ((clear java).final s) := by
  by_cases hnil : s.buffer.text = []
  · rw [Update.final_of_ok (clear_of_nil h.toAligned hnil)]
    exact h.evolves
  · have he := Edit.remove_all_makes s.buffer.text
    rw [Update.final_of_ok (clear_of_ne_nil h.toAligned hnil rfl)]
    exact h.evolves_committed he hnil h.no_return (he.caretAfter_le (h.length_eq ▸ h.caret_le))

theorem Coherent.setCaret (h : Coherent java s) (caret : Nat) :
    Coherent java ((setCaret caret).final s) ∧ Quiet s ((Session.setCaret caret).final s) := by
  by_cases hcaret : caret ≤ s.buffer.length
  · rw [Update.final_of_ok (setCaret_eq h.toAligned hcaret)]
    exact ⟨h.caretAt hcaret, quiet_caretAt s caret⟩
  · rw [Update.final_of_error (setCaret_of_lt (Nat.lt_of_not_le hcaret))]
    exact ⟨h, Quiet.refl s⟩

/-- The session after a message was shown. -/
def noted (s : Session MemoryDocument) (text : String) : Session MemoryDocument :=
  { s with document := { s.document with messages := s.document.messages ++ [text] } }

theorem message_eq (s : Session MemoryDocument) (text : String) :
    onDocument (Surface.message text) s = .ok () (s.noted text) :=
  onDocument_of_ok (Update.modify_apply _ s.document)

theorem Aligned.noted (h : Aligned s) (text : String) : Aligned (s.noted text) :=
  ⟨h.chars_eq, h.length_eq, h.caret_eq, h.caret_le, h.styles_length, h.lineCount_eq, h.unlocked,
    h.unlockedWrites_eq, h.drained⟩

theorem Coherent.noted (h : Coherent java s) (text : String) : Coherent java (s.noted text) :=
  h.of_aligned (h.toAligned.noted text) rfl rfl rfl rfl rfl rfl rfl rfl

theorem quiet_noted (s : Session MemoryDocument) (text : String) : Quiet s (s.noted text) :=
  ⟨rfl, rfl, rfl, rfl⟩

theorem Coherent.evolves_breakLine (h : Coherent java s) (message : String)
    (offset caret : Buffer → Nat) :
    Evolves java s ((breakLine java message offset caret).final s) := by
  refine (quiet_noted s message).evolves ?_
  have hinsert := (h.noted message).evolves_insert (offset s.buffer) ['\n']
  rw [Update.final, breakLine, Update.bind_of_ok (message_eq s message), Update.get_bind,
    ← Update.final]
  obtain hfailed | ⟨-, hplaced⟩ := Update.final_bind_cases (insert java (offset s.buffer) ['\n'])
    (fun _ => Session.setCaret (caret s.buffer)) (s.noted message)
  · exact hfailed.symm ▸ hinsert
  · obtain ⟨hcoherent, hquiet⟩ := hinsert.1.setCaret (caret s.buffer)
    exact hplaced.symm ▸ hinsert.quiet hcoherent hquiet

/-- The line of the caret starts with a comment mark. -/
def IsCommented (s : Session MemoryDocument) : Prop :=
  let mark := (s.language.getD .kotlin).lineComment
  let start := s.buffer.lineStart s.buffer.caret
  start + mark.length ≤ s.buffer.lineStop s.buffer.caret ∧
    (s.buffer.text.drop start).take mark.length = mark

instance (s : Session MemoryDocument) : Decidable s.IsCommented :=
  inferInstanceAs (Decidable (_ ∧ _))

theorem lineStartsWith_eq {b : Buffer} {start stop : Nat} (h : start ≤ stop)
    (hstop : stop ≤ b.text.length) (mark : List Char) :
    lineStartsWith b start stop mark =
      .ok (decide (start + mark.length ≤ stop ∧ (b.text.drop start).take mark.length = mark)) := by
  rw [lineStartsWith]
  by_cases hroom : mark.length ≤ stop - start
  · rw [if_pos hroom, Buffer.slice_of_le (Nat.le_add_right _ _) (by omega),
      Nat.add_sub_cancel_left]
    have hle : start + mark.length ≤ stop := by omega
    simp only [hle, true_and, ← beq_eq_decide]
    rfl
  · have hlt : ¬ start + mark.length ≤ stop := by omega
    rw [if_neg hroom, decide_eq_false fun hboth => hlt hboth.1]
    rfl

/-- The slice that is compared lies inside the text. -/
theorem Aligned.toggleLineComment_eq (h : Aligned s) (java : ExternalParser) :
    let mark := (s.language.getD .kotlin).lineComment
    let start := s.buffer.lineStart s.buffer.caret
    toggleLineComment java s =
      (if s.IsCommented then remove java start mark.length else insert java start mark) s := by
  intro mark start
  have hstarts : lineStartsWith s.buffer start (s.buffer.lineStop s.buffer.caret) mark =
      .ok (decide s.IsCommented) :=
    lineStartsWith_eq
      ((s.buffer.lineStart_le s.buffer.caret).trans (Buffer.le_lineStop h.caret_le))
      (h.length_eq ▸ Buffer.lineStop_le h.length_eq s.buffer.caret) mark
  rw [toggleLineComment, Update.get_bind, hstarts]
  by_cases hcommented : s.IsCommented
  · rw [if_pos hcommented, decide_eq_true hcommented]
    rfl
  · rw [if_neg hcommented, decide_eq_false hcommented]
    rfl

theorem Coherent.evolves_toggleLineComment (h : Coherent java s) :
    Evolves java s ((toggleLineComment java).final s) := by
  rw [Update.final, h.toAligned.toggleLineComment_eq java, ← Update.final]
  split
  · exact h.evolves_remove _ _
  · exact h.evolves_insert _ _

theorem setLanguage_eq (s : Session MemoryDocument) (language : Option Language) :
    setLanguage java language s = .ok () (repainted java (s.withLanguage language)) := by
  rw [setLanguage, Update.modify_bind, Update.bind_of_ok (reparse_eq java _), Update.pure_apply]

theorem Coherent.evolves_setLanguage (h : Coherent java s) (language : Option Language) :
    Evolves java s ((setLanguage java language).final s) := by
  have hselected : Mirrored (s.withLanguage language) :=
    ⟨h.toAligned.of_eq rfl rfl rfl rfl, h.no_return, h.lineCount_eq_count, h.tabSize_eq⟩
  rw [Update.final_of_ok (setLanguage_eq s language)]
  exact ⟨hselected.coherent_repainted h.policy_eq h.limit_eq, Or.inl ⟨rfl, rfl, rfl, rfl⟩⟩

/-- Options are all that is left when a language is selected and a text loaded. -/
theorem setLanguage_load_eq (h : Coherent java s) (language : Option Language)
    (text : List Char) :
    ∃ t, (setLanguage java language >>= fun _ => load java text) s = .ok () t ∧
      Loaded java s.options language (EditPolicy.withoutReturns text) t := by
  have hselected := (h.evolves_setLanguage language).1
  rw [Update.final_of_ok (setLanguage_eq s language)] at hselected
  obtain ⟨t, heq, ht⟩ := load_eq hselected text
  exact ⟨t, (Update.bind_of_ok (setLanguage_eq s language)).trans heq, ht⟩

theorem switchLanguage_eq (s : Session MemoryDocument) (fileName : List Char) :
    switchLanguage java fileName s = .ok (Language.detect? fileName)
      (repainted java (s.withLanguage (Language.detect? fileName))) := by
  rw [switchLanguage, Update.bind_of_ok (setLanguage_eq s _), Update.pure_apply]

theorem Coherent.evolves_switchLanguage (h : Coherent java s) (fileName : List Char) :
    Evolves java s ((switchLanguage java fileName).final s) := by
  have hset := h.evolves_setLanguage (Language.detect? fileName)
  rw [Update.final_of_ok (setLanguage_eq s _)] at hset
  rw [Update.final_of_ok (switchLanguage_eq s fileName)]
  exact hset

theorem Coherent.evolves_reparse (h : Coherent java s) :
    Evolves java s ((reparse java).final s) := by
  rw [Update.final_of_ok (reparse_eq java s)]
  exact ⟨h.toMirrored.coherent_repainted h.policy_eq h.limit_eq, Or.inl ⟨rfl, rfl, rfl, rfl⟩⟩

/-- The syntax tree of the text, as it was parsed before or else as it is now. -/
def parsedTree {D : Type} (java : ExternalParser) (s : Session D) : Option SyntaxTree :=
  s.tree.or (s.language.map fun language => language.parse java s.buffer.text)

/-- The session after its text has been parsed, if that was not done before. -/
def parsed {D : Type} (java : ExternalParser) (s : Session D) : Session D :=
  { s with
    tree := s.parsedTree java
    parser := if s.tree.isSome then s.parser else s.language.or s.parser }

theorem syntaxTree_eq {D : Type} [Surface D] (s : Session D) :
    syntaxTree java s = .ok (s.parsedTree java) (s.parsed java) := by
  obtain ⟨document, buffer, policy, options, cache, history, language, tree, parser, lineCount⟩ := s
  cases tree with
  | some tree => rfl
  | none =>
    cases language with
    | none => rfl
    | some l =>
      simp only [syntaxTree, Update.get_bind, parserFor_eq]
      rfl

theorem Coherent.evolves_syntaxTree (h : Coherent java s) :
    Evolves java s ((syntaxTree java).final s) := by
  rw [Update.final_of_ok (syntaxTree_eq s)]
  exact ⟨h.of_aligned (h.toAligned.of_eq rfl rfl rfl rfl) rfl rfl rfl rfl rfl rfl rfl rfl,
    Or.inl ⟨rfl, rfl, rfl, rfl⟩⟩

theorem Coherent.evolves_markSaved (h : Coherent java s) :
    Evolves java s (markSaved.final s) :=
  ⟨h.of_aligned (h.toAligned.of_eq rfl rfl rfl rfl) rfl rfl rfl rfl rfl rfl rfl rfl,
    Or.inl ⟨rfl, rfl, rfl, rfl⟩⟩

end Session

end SourceEditor

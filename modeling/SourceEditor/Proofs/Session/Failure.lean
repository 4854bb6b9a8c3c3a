import SourceEditor.Proofs.Session.Colors

/-!
# Which operations fail

An operation of a session over a document in memory fails exactly if its arguments break its
contract, and a failed operation leaves the session as it was, document included.
`Operation.Refused` is the contract, said without the code that checks it, and
`Session.perform_fails_iff` shows it for all sessions that can be reached.

The check that fails is always the first thing that an operation does to the session. The line
operations show a message before they insert, so for them the argument is that the insertion and the
move of the caret cannot fail: their offsets are ends of lines.
-/

namespace SourceEditor

/-- Nothing is left of a text that is put in: it has carriage returns only, or beside them one tab
that becomes no spaces. -/
def Options.LeavesNothing (options : Options) (text : List Char) : Prop :=
  text.filter (· ≠ '\r') = [] ∨
    text.filter (· ≠ '\r') = ['\t'] ∧ options.indentWithSpaces = true ∧ options.tabSize = 0

instance (options : Options) (text : List Char) : Decidable (options.LeavesNothing text) :=
  inferInstanceAs (Decidable (_ ∨ _))

/-- Whether an operation breaks its contract: text would be put, taken or pointed at outside of the
text that is there, or a tab would become more spaces than can be written. -/
def Operation.Refused {D : Type} (s : Session D) : Operation → Prop
  | .insert offset text => s.buffer.length < offset ∧ ¬ s.options.LeavesNothing text
  | .remove offset count => 0 < count ∧ s.buffer.length < offset + count
  | .setCaret caret => s.buffer.length < caret
  | .reload options => options.indentWithSpaces = true ∧ maxAllocation < options.tabSize
  | _ => False

instance {D : Type} (s : Session D) : (operation : Operation) → Decidable (operation.Refused s)
  | .insert _ _ => inferInstanceAs (Decidable (_ ∧ _))
  | .remove _ _ => inferInstanceAs (Decidable (_ ∧ _))
  | .setCaret _ => inferInstanceAs (Decidable (_ < _))
  | .reload _ => inferInstanceAs (Decidable (_ ∧ _))
  | .clear | .load _ | .undo | .redo | .nextLine | .splitLine | .newLineBefore
  | .toggleLineComment | .switchLanguage _ | .setLanguage _ | .reparse | .syntaxTree
  | .markSaved => inferInstanceAs (Decidable False)

namespace Update

variable {σ α β : Type} {u : Update σ α} {s : σ} {refused : Prop}

/-- An update fails on a state exactly under a condition, and then without effect. -/
def RefusesIff (u : Update σ α) (s : σ) (refused : Prop) : Prop :=
  (refused ∧ ∃ fault, u s = .error fault s) ∨ (¬ refused ∧ ∃ a t, u s = .ok a t)

namespace RefusesIff

theorem of_error {fault : Fault} (hrefused : refused) (h : u s = .error fault s) :
    u.RefusesIff s refused :=
  .inl ⟨hrefused, fault, h⟩

theorem of_ok {a : α} {t : σ} (hrefused : ¬ refused) (h : u s = .ok a t) :
    u.RefusesIff s refused :=
  .inr ⟨hrefused, a, t, h⟩

theorem map (h : u.RefusesIff s refused) (f : α → β) : (f <$> u).RefusesIff s refused := by
  obtain ⟨hrefused, fault, h⟩ | ⟨hrefused, a, t, h⟩ := h
  · exact of_error hrefused (map_of_error h)
  · exact of_ok hrefused (map_of_ok h)

theorem fails_iff (h : u.RefusesIff s refused) : u.fails s = true ↔ refused := by
  obtain ⟨hrefused, fault, h⟩ | ⟨hrefused, a, t, h⟩ := h
  · simp [fails, h, hrefused]
  · simp [fails, h, hrefused]

theorem final_eq (h : u.RefusesIff s refused) (hrefused : refused) : u.final s = s := by
  obtain ⟨-, fault, h⟩ | ⟨hnot, -⟩ := h
  · exact final_of_error h
  · exact absurd hrefused hnot

end RefusesIff

end Update

/-! ## Plans -/

namespace EditPolicy

/-- A line break is inserted as it is. -/
theorem planInsert_lineBreak {policy : EditPolicy} (h : policy.delimiters = .standard) (b : Buffer)
    (offset : Nat) : (policy.planInsert b offset ['\n']).text = ['\n'] := by
  have hopener : Delimiters.standard.opener? '\n' = none := by decide
  have hcloser : Delimiters.standard.closer? '\n' = none := by decide
  change (policy.planChar b offset '\n').text = ['\n']
  rw [planChar, h, hopener, hcloser]
  cases policy.tab <;> rfl

variable {options : Options} {policy : EditPolicy} {b : Buffer} {offset : Nat}

/-- Past the end of a text there is no delimiter to step over, so that only a tab can get lost. -/
theorem text_planChar_eq_nil_iff (h : options.policy = .ok policy)
    (hlength : b.length = b.text.length) (hoffset : b.length < offset) (c : Char) :
    (policy.planChar b offset c).text = [] ↔
      c = '\t' ∧ options.indentWithSpaces = true ∧ options.tabSize = 0 := by
  have hbehind : b.charAt? offset = none := List.getElem?_eq_none (by omega)
  have htab : Delimiters.standard.closer? '\t' = none := by decide
  rw [Options.eq_of_policy h, planChar, hbehind]
  cases hcloser : Delimiters.standard.closer? c with
  | some closer =>
    have hc : c ≠ '\t' := by
      rintro rfl
      exact Option.some_ne_none _ (hcloser.symm.trans htab)
    simp [hc]
  | none =>
    by_cases hc : c = '\t'
    · cases options.indentWithSpaces <;> simp [hc]
    · cases options.indentWithSpaces <;> simp [hc]

/-- Past the end of a text, nothing is planned exactly if the options leave nothing to put in. -/
theorem text_planInsert_eq_nil_iff (h : options.policy = .ok policy)
    (hlength : b.length = b.text.length) (hoffset : b.length < offset) (text : List Char) :
    (policy.planInsert b offset text).text = [] ↔ options.LeavesNothing text := by
  rw [Options.LeavesNothing, ← withoutReturns_eq, planInsert]
  split
  · next c hc => simp [hc, text_planChar_eq_nil_iff h hlength hoffset]
  · next hmany =>
    refine ⟨Or.inl, ?_⟩
    rintro (hnil | ⟨htab, -⟩)
    · exact hnil
    · exact absurd htab (hmany '\t')

end EditPolicy

/-- The edit that breaks a line. -/
def Edit.lineBreak (offset : Nat) : Edit := ⟨.insert, offset, ['\n']⟩

theorem Edit.exists_lineBreak_makes {text : List Char} {offset : Nat} (h : offset ≤ text.length) :
    ∃ after, (Edit.lineBreak offset).Makes text after ∧ after.length = text.length + 1 := by
  refine ⟨_, Edit.insert_makes h ['\n'], ?_⟩
  simp only [List.length_append, List.length_take, List.length_drop, List.length_singleton]
  omega

theorem Options.policy_cases (o : Options) :
    (o.indentWithSpaces = true ∧ maxAllocation < o.tabSize) ∧ (∃ fault, o.policy = .error fault) ∨
      ¬ (o.indentWithSpaces = true ∧ maxAllocation < o.tabSize) ∧
        ∃ policy, o.policy = .ok policy := by
  unfold Options.policy EditPolicy.expandingTabs
  by_cases hspaces : o.indentWithSpaces = true
  · by_cases hsize : o.tabSize ≤ maxAllocation
    · exact Or.inr ⟨fun h => absurd h.2 (Nat.not_lt.mpr hsize), by simp [hspaces, hsize]⟩
    · exact Or.inl ⟨⟨hspaces, Nat.not_le.mp hsize⟩, by simp [hspaces, hsize]⟩
  · exact Or.inr ⟨fun h => hspaces h.1, by simp [hspaces]⟩

namespace Session

variable (java : ExternalParser) {timeline : Timeline} {s : Session MemoryDocument}

/-! ## Operations that check their arguments -/

theorem refusesIff_insert (h : Coherent java s) (offset : Nat) (text : List Char) :
    (insert java offset text).RefusesIff s ((Operation.insert offset text).Refused s) := by
  have hplan (hlt : s.buffer.length < offset) :
      (s.policy.planInsert s.buffer offset text).text = [] ↔ s.options.LeavesNothing text :=
    EditPolicy.text_planInsert_eq_nil_iff h.policy_eq h.length_eq hlt text
  obtain ⟨hnil, caret, -, heq⟩ | ⟨hne, ⟨hlt, fault, heq⟩ | ⟨hle, after, caret, -, -, heq⟩⟩ :=
    insert_cases java h.toAligned offset text rfl
  · exact .of_ok (fun hrefused => hrefused.2 ((hplan hrefused.1).mp hnil)) heq
  · exact .of_error ⟨hlt, fun hnothing => hne ((hplan hlt).mpr hnothing)⟩ heq
  · exact .of_ok (fun hrefused => Nat.not_lt.mpr hle hrefused.1) heq

theorem refusesIff_remove (h : Aligned s) (offset count : Nat) :
    (remove java offset count).RefusesIff s ((Operation.remove offset count).Refused s) := by
  obtain ⟨rfl, heq⟩ | ⟨hpos, ⟨hlt, fault, heq⟩ | ⟨hle, e, after, -, -, -, heq⟩⟩ :=
    remove_cases java h offset count
  · exact .of_ok (fun hrefused => Nat.lt_irrefl 0 hrefused.1) heq
  · exact .of_error ⟨hpos, hlt⟩ heq
  · exact .of_ok (fun hrefused => Nat.not_lt.mpr hle hrefused.2) heq

theorem refusesIff_setCaret (h : Aligned s) (caret : Nat) :
    (setCaret caret).RefusesIff s ((Operation.setCaret caret).Refused s) := by
  by_cases hcaret : s.buffer.length < caret
  · exact .of_error hcaret (setCaret_of_lt hcaret)
  · exact .of_ok hcaret (setCaret_eq h (Nat.not_lt.mp hcaret))

theorem refusesIff_reload (h : Aligned s) (options : Options) :
    (reload java options).RefusesIff s ((Operation.reload options).Refused s) := by
  obtain ⟨hrefused, fault, hpolicy⟩ | ⟨hrefused, policy, hpolicy⟩ := options.policy_cases
  · exact .of_error hrefused (reload_of_error hpolicy)
  · exact .of_ok hrefused (reload_eq h hpolicy)

/-! ## Operations that never fail -/

variable {java}

/-- A line break inside the text is committed. -/
theorem insert_lineBreak_eq (h : Coherent java s) {offset : Nat}
    (hoffset : offset ≤ s.buffer.length) :
    ∃ caret ≤ s.buffer.length + 1, insert java offset ['\n'] s =
      .ok () (s.committed java (.lineBreak offset) caret
        (s.history.record (.lineBreak offset))) := by
  have hplan := EditPolicy.planInsert_lineBreak (Options.delimiters_of_policy h.policy_eq) s.buffer
    offset
  obtain ⟨after, he, hlength⟩ := Edit.exists_lineBreak_makes (h.length_eq ▸ hoffset)
  rw [Edit.lineBreak, ← hplan] at he
  obtain ⟨caret, hcaret, heq⟩ := insert_of_makes java h.toAligned rfl (by simp [hplan]) he
  rw [hplan] at heq
  exact ⟨caret, hcaret.trans (hlength.trans (h.length_eq ▸ rfl)).le, heq⟩

/-- A line break inside the text makes room for a caret behind it. -/
theorem breakLine_eq (h : Coherent java s) (message : String) (offset caret : Buffer → Nat)
    (hoffset : offset s.buffer ≤ s.buffer.length)
    (hcaret : caret s.buffer ≤ s.buffer.length + 1) :
    ∃ place, breakLine java message offset caret s =
      .ok () (((s.noted message).committed java (.lineBreak (offset s.buffer)) place
        (s.history.record (.lineBreak (offset s.buffer)))).caretAt (caret s.buffer)) := by
  have hnoted := h.noted message
  obtain ⟨after, he, hlength⟩ := Edit.exists_lineBreak_makes (h.length_eq ▸ hoffset)
  obtain ⟨place, hplace, hinsert⟩ := insert_lineBreak_eq hnoted hoffset
  have haligned : Aligned ((s.noted message).committed java (.lineBreak (offset s.buffer)) place
      (s.history.record (.lineBreak (offset s.buffer)))) :=
    hnoted.toAligned.committed he (hlength ▸ h.length_eq ▸ hplace) _
  have hroom : caret s.buffer ≤ (s.buffer.edited (.lineBreak (offset s.buffer))).length := by
    rw [Buffer.length_edited he h.length_eq, hlength, ← h.length_eq]
    exact hcaret
  refine ⟨place, ?_⟩
  rw [breakLine, Update.bind_of_ok (message_eq s message), Update.get_bind]
  exact (Update.bind_of_ok hinsert).trans (setCaret_eq haligned hroom)

/-- A comment mark is taken from a line that has one, and put at the start of any other. -/
theorem exists_toggleLineComment_eq (h : Coherent java s) :
    ∃ t, toggleLineComment java s = .ok () t := by
  rw [h.toAligned.toggleLineComment_eq java]
  have hstart := (s.buffer.lineStart_le s.buffer.caret).trans h.caret_le
  have hstop := Buffer.lineStop_le h.length_eq s.buffer.caret
  split
  · next hmark =>
    have hle := hmark.1
    obtain ⟨⟨-, hlt⟩, -⟩ | ⟨-, ⟨⟩, t, heq⟩ := refusesIff_remove java h.toAligned
      (s.buffer.lineStart s.buffer.caret) (s.language.getD .kotlin).lineComment.length
    · omega
    · exact ⟨t, heq⟩
  · obtain ⟨⟨hlt, -⟩, -⟩ | ⟨-, ⟨⟩, t, heq⟩ := refusesIff_insert java h
      (s.buffer.lineStart s.buffer.caret) (s.language.getD .kotlin).lineComment
    · omega
    · exact ⟨t, heq⟩

theorem exists_clear_eq (h : Aligned s) : ∃ t, clear java s = .ok () t := by
  by_cases hnil : s.buffer.text = []
  · exact ⟨s, clear_of_nil h hnil⟩
  · exact ⟨_, clear_of_ne_nil h hnil rfl⟩

theorem Sound.exists_undo_eq (h : Sound java timeline s) : ∃ t, Session.undo java s = .ok () t := by
  cases hundos : s.history.undos with
  | nil => exact ⟨s, undo_of_nil hundos⟩
  | cons e rest =>
    obtain ⟨-, -, t, -, heq, -⟩ := h.undo hundos
    exact ⟨t, heq⟩

theorem Sound.exists_redo_eq (h : Sound java timeline s) : ∃ t, Session.redo java s = .ok () t := by
  cases hredos : s.history.redos with
  | nil => exact ⟨s, redo_of_nil hredos⟩
  | cons e rest =>
    obtain ⟨-, -, t, -, heq, -⟩ := h.redo hredos
    exact ⟨t, heq⟩

/-! ## All operations -/

theorem Sound.refusesIff (h : Sound java timeline s) (operation : Operation) :
    (Session.perform java operation).RefusesIff s (operation.Refused s) := by
  have hcoherent := h.toCoherent
  have haligned := hcoherent.toAligned
  have hcaret := haligned.caret_le
  have hstart := s.buffer.lineStart_le s.buffer.caret
  have hstop := Buffer.lineStop_le haligned.length_eq s.buffer.caret
  cases operation with
  | insert offset text => exact (refusesIff_insert java hcoherent offset text).map _
  | remove offset count => exact (refusesIff_remove java haligned offset count).map _
  | setCaret caret => exact (refusesIff_setCaret haligned caret).map _
  | reload options => exact (refusesIff_reload java haligned options).map _
  | clear =>
    obtain ⟨t, heq⟩ := exists_clear_eq haligned
    exact .of_ok id (Update.map_of_ok heq)
  | load text =>
    obtain ⟨t, heq, -⟩ := load_eq hcoherent text
    exact .of_ok id (Update.map_of_ok heq)
  | undo =>
    obtain ⟨t, heq⟩ := h.exists_undo_eq
    exact .of_ok id (Update.map_of_ok heq)
  | redo =>
    obtain ⟨t, heq⟩ := h.exists_redo_eq
    exact .of_ok id (Update.map_of_ok heq)
  | nextLine =>
    obtain ⟨place, heq⟩ := breakLine_eq hcoherent "Started new line"
      (fun b => b.lineStop b.caret) (fun b => b.lineStop b.caret + 1) hstop
      (Nat.succ_le_succ hstop)
    exact .of_ok id (Update.map_of_ok heq)
  | splitLine =>
    obtain ⟨place, heq⟩ := breakLine_eq hcoherent "Split new line" Buffer.caret Buffer.caret
      hcaret (Nat.le_succ_of_le hcaret)
    exact .of_ok id (Update.map_of_ok heq)
  | newLineBefore =>
    have hle := hstart.trans hcaret
    obtain ⟨place, heq⟩ := breakLine_eq hcoherent "Started new line before current line"
      (fun b => b.lineStart b.caret) (fun b => b.lineStart b.caret) hle
      (Nat.le_succ_of_le hle)
    exact .of_ok id (Update.map_of_ok heq)
  | toggleLineComment =>
    obtain ⟨t, heq⟩ := exists_toggleLineComment_eq hcoherent
    exact .of_ok id (Update.map_of_ok heq)
  | switchLanguage fileName =>
    exact .of_ok id (Update.map_of_ok (switchLanguage_eq s fileName))
  | setLanguage language => exact .of_ok id (Update.map_of_ok (setLanguage_eq s language))
  | reparse => exact .of_ok id (Update.map_of_ok (reparse_eq java s))
  | syntaxTree => exact .of_ok id (Update.map_of_ok (syntaxTree_eq s))
  | markSaved => exact .of_ok id (Update.map_of_ok (Update.modify_apply _ s))

/-- **Operations fail exactly when they are refused, and then without effect.** -/
theorem perform_fails_iff (java : ExternalParser) {s : Session MemoryDocument}
    (h : Reached java s) (operation : Operation) :
    ((perform java operation).fails s = true ↔ operation.Refused s) ∧
      ((perform java operation).fails s = true → (perform java operation).final s = s) := by
  obtain ⟨options, s₀, operations, hstart, rfl⟩ := h
  have hsound : Sound java _ (run java operations s₀) := (sound_of_start hstart).run operations
  have hrefuses := hsound.refusesIff operation
  exact ⟨hrefuses.fails_iff, fun hfails => hrefuses.final_eq (hrefuses.fails_iff.mp hfails)⟩

/-- In `()` the opening delimiter takes its partner with it, but a range that ends past the text, or
past all numbers of a machine word, is refused. -/
theorem perform_fails_iff_pair :
    let s := run noJavaParts [.load ['(', ')']] (fresh {} {})
    Reached noJavaParts s ∧
      (perform noJavaParts (.remove 0 1)).fails s = false ∧
      (perform noJavaParts (.remove 1 0xffffffffffffffff)).fails s = true ∧
      (perform noJavaParts (.remove 1 0xffffffffffffffff)).final s = s ∧
      (perform noJavaParts (.insert 3 ['\r'])).fails s = false := by
  intro s
  have hreached : Reached noJavaParts s := ⟨{}, fresh {} {}, _, rfl, rfl⟩
  have hremove := perform_fails_iff noJavaParts hreached (.remove 1 0xffffffffffffffff)
  have hfails := hremove.1.mpr (by decide +kernel)
  refine ⟨hreached, ?_, hfails, hremove.2 hfails, ?_⟩
  · rw [Bool.eq_false_iff, ne_eq, (perform_fails_iff noJavaParts hreached (.remove 0 1)).1]
    decide +kernel
  · rw [Bool.eq_false_iff, ne_eq, (perform_fails_iff noJavaParts hreached (.insert 3 ['\r'])).1]
    decide +kernel

end Session

end SourceEditor

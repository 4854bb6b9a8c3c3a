import SourceEditor.Proofs.Session.Surfaces

/-!
# Pairs of delimiters

An opening delimiter that is typed brings its closing one, unless the caret already stands between
such a pair. From between the two the pair can be left in three ways: either delimiter steps over
the closing one, deleting the opening one deletes both, and taking back takes back both.
`Session.PairTyped` says so of the session after the pair has been typed, and `Session.typed_pairs`
shows it for all pairs of the table in every session that can be reached.

What the policy plans depends on the table in both directions. Of a quote, which closes itself, the
plan asks first whether it closes something. `Delimiters.IsPair` is what has to hold of the table.
-/

namespace SourceEditor

/-! ## The table -/

namespace Delimiters

/-- A pair of delimiters that are looked up as such. The opening one closes no other pair. -/
structure IsPair (opener closer : Char) : Prop where
  closer?_opener : standard.closer? opener = some closer
  opener?_closer : standard.opener? closer = some opener
  opener?_opener : standard.opener? opener = none ∨ opener = closer
  opener_ne_return : opener ≠ '\r'
  closer_ne_return : closer ≠ '\r'

theorem isPair_of_mem {opener closer : Char} (h : (opener, closer) ∈ standard.pairs) :
    IsPair opener closer := by
  have hall : ∀ pair ∈ standard.pairs, standard.closer? pair.1 = some pair.2 ∧
      standard.opener? pair.2 = some pair.1 ∧ (standard.opener? pair.1 = none ∨ pair.1 = pair.2) ∧
      pair.1 ≠ '\r' ∧ pair.2 ≠ '\r' := by decide
  obtain ⟨hcloser, hopener, hself, hreturn, hreturn'⟩ := hall _ h
  exact ⟨hcloser, hopener, hself, hreturn, hreturn'⟩

end Delimiters

open Delimiters (IsPair)

/-! ## Plans -/

/-- The offset lies between an opening and a closing delimiter. -/
def Buffer.Between (b : Buffer) (offset : Nat) (opener closer : Char) : Prop :=
  EditPolicy.charBefore? b offset = some opener ∧ b.charAt? offset = some closer

instance (b : Buffer) (offset : Nat) (opener closer : Char) :
    Decidable (b.Between offset opener closer) :=
  inferInstanceAs (Decidable (_ ∧ _))

namespace EditPolicy

variable {policy : EditPolicy} {opener closer : Char} {b : Buffer} {offset : Nat}

theorem planInsert_singleton {c : Char} (hc : c ≠ '\r') :
    policy.planInsert b offset [c] = policy.planChar b offset c := by
  simp [planInsert, withoutReturns, hc]

theorem planInsert_opener (h : policy.delimiters = .standard) (hpair : IsPair opener closer)
    (houtside : ¬ b.Between offset opener closer) :
    policy.planInsert b offset [opener] = ⟨offset, [opener, closer], -1⟩ := by
  have hsteps :
      (charBefore? b offset == some opener && b.charAt? offset == some closer) = false := by
    simpa [Buffer.Between] using houtside
  rw [planInsert_singleton hpair.opener_ne_return, planChar, h, hpair.closer?_opener]
  rcases hpair.opener?_opener with hnone | rfl
  · simp [hnone, hsteps]
  · simp [hpair.opener?_closer, hsteps]

/-- Between a pair, each of the two steps over the closing one. -/
theorem planInsert_between (h : policy.delimiters = .standard) (hpair : IsPair opener closer)
    (hbetween : b.Between offset opener closer) {c : Char} (hc : c = opener ∨ c = closer) :
    policy.planInsert b offset [c] = ⟨offset, [], 1⟩ := by
  obtain ⟨hbefore, hfollowing⟩ := hbetween
  rcases hc with rfl | rfl
  · rw [planInsert_singleton hpair.opener_ne_return, planChar, h, hpair.closer?_opener, hbefore,
      hfollowing]
    simp
  · rw [planInsert_singleton hpair.closer_ne_return, planChar, h, hpair.opener?_closer, hbefore,
      hfollowing]
    simp

theorem planRemove_opener (h : policy.delimiters = .standard) (hpair : IsPair opener closer)
    (hopener : b.charAt? offset = some opener) (hcloser : b.charAt? (offset + 1) = some closer) :
    policy.planRemove b offset 1 = ⟨offset, 2⟩ := by
  simp [planRemove, isPairAt, h, hopener, hcloser, hpair.closer?_opener]

end EditPolicy

namespace Session

/-! ## A pair that is typed -/

/-- The session `t` has a pair that has just been typed in the session `s`. -/
structure PairTyped {D : Type} [Surface D] (java : ExternalParser) (opener closer : Char)
    (s t : Session D) : Prop where
  text_eq : t.buffer.text =
    s.buffer.text.take s.buffer.caret ++ [opener, closer] ++ s.buffer.text.drop s.buffer.caret
  caret_eq : t.buffer.caret = s.buffer.caret + 1
  /-- The pair is one edit. -/
  history_eq : t.history = s.history.record ⟨.insert, s.buffer.caret, [opener, closer]⟩
  step_over : ∀ c ∈ [opener, closer], ∃ u, insert java t.buffer.caret [c] t = .ok () u ∧
    u.buffer.text = t.buffer.text ∧ u.buffer.caret = s.buffer.caret + 2 ∧ u.history = t.history
  delete : ∃ u, remove java s.buffer.caret 1 t = .ok () u ∧
    u.buffer.text = s.buffer.text ∧ u.buffer.caret = s.buffer.caret
  take_back : 0 < s.options.undoLimit → ∃ u, undo java t = .ok () u ∧
    u.buffer.text = s.buffer.text ∧ u.buffer.caret = s.buffer.caret

variable {java : ExternalParser} {opener closer : Char} {s : Session MemoryDocument}

/-- The session with a pair of delimiters inserted at the caret, and the caret between them. -/
def withPair (java : ExternalParser) (opener closer : Char) (s : Session MemoryDocument) :
    Session MemoryDocument :=
  s.committed java ⟨.insert, s.buffer.caret, [opener, closer]⟩ (s.buffer.caret + 1)
    (s.history.record ⟨.insert, s.buffer.caret, [opener, closer]⟩)

section

variable (opener closer) (h : Aligned s)
include h

theorem Aligned.pair_makes :
    Edit.Makes ⟨.insert, s.buffer.caret, [opener, closer]⟩ s.buffer.text
      (s.buffer.text.take s.buffer.caret ++ [opener, closer] ++
        s.buffer.text.drop s.buffer.caret) :=
  Edit.insert_makes (h.length_eq ▸ h.caret_le) _

theorem Aligned.text_withPair :
    (s.withPair java opener closer).buffer.text =
      s.buffer.text.take s.buffer.caret ++ [opener, closer] ++ s.buffer.text.drop s.buffer.caret :=
  text_committed (h.pair_makes opener closer) _ _

theorem Aligned.caret_withPair_le :
    s.buffer.caret + 2 ≤ (s.buffer.text.take s.buffer.caret ++ [opener, closer] ++
      s.buffer.text.drop s.buffer.caret).length := by
  have hcaret := h.length_eq ▸ h.caret_le
  simp only [List.length_append, List.length_take, List.length_cons]
  omega

theorem Aligned.withPair : Aligned (s.withPair java opener closer) :=
  h.committed (h.pair_makes opener closer)
    ((Nat.le_succ _).trans (h.caret_withPair_le opener closer)) _

theorem Aligned.withPair_makes :
    Edit.Makes ⟨.insert, s.buffer.caret, [opener, closer]⟩ s.buffer.text
      (s.withPair java opener closer).buffer.text := by
  rw [h.text_withPair]
  exact h.pair_makes opener closer

/-- The pair stands where the caret was. -/
theorem Aligned.drop_withPair :
    (s.withPair java opener closer).buffer.text.drop s.buffer.caret =
      opener :: closer :: s.buffer.text.drop s.buffer.caret := by
  have hfront : (s.buffer.text.take s.buffer.caret).length = s.buffer.caret :=
    List.length_take_of_le (h.length_eq ▸ h.caret_le)
  rw [h.text_withPair, List.append_assoc]
  exact List.drop_left' hfront

theorem Aligned.charAt?_withPair (i : Nat) :
    (s.withPair java opener closer).buffer.charAt? (s.buffer.caret + i) =
      (opener :: closer :: s.buffer.text.drop s.buffer.caret)[i]? := by
  rw [Buffer.charAt?, ← List.getElem?_drop, h.drop_withPair]

theorem Aligned.between_withPair :
    (s.withPair java opener closer).buffer.Between (s.buffer.caret + 1) opener closer :=
  ⟨h.charAt?_withPair opener closer 0, h.charAt?_withPair opener closer 1⟩

end

/-! ## The five operations -/

variable (h : Coherent java s) (hpair : IsPair opener closer)
include h hpair

theorem insert_opener_eq (houtside : ¬ s.buffer.Between s.buffer.caret opener closer) :
    insert java s.buffer.caret [opener] s = .ok () (s.withPair java opener closer) := by
  have hplan :=
    EditPolicy.planInsert_opener (Options.delimiters_of_policy h.policy_eq) hpair houtside
  have hroom := h.toAligned.caret_withPair_le opener closer
  have hcaret : min
      ((Edit.caretAfter ⟨.insert, s.buffer.caret, [opener, closer]⟩ s.buffer.caret : Nat) +
        (-1 : Int)).toNat
      (s.buffer.text.take s.buffer.caret ++ [opener, closer] ++
        s.buffer.text.drop s.buffer.caret).length = s.buffer.caret + 1 := by
    simp only [Edit.caretAfter, Buffer.caretAfterInsert, Nat.le_refl, if_true, List.length_cons,
      List.length_nil]
    omega
  rw [insert_of_moves java h.toAligned hplan (List.cons_ne_nil _ _)
    (h.toAligned.pair_makes opener closer) ⟨rfl, Int.neg_ne_zero.mpr Int.one_ne_zero⟩, hcaret,
    Session.withPair]

/-- Either delimiter moves the caret behind the pair. -/
theorem insert_between_eq {c : Char} (hc : c = opener ∨ c = closer) :
    insert java (s.buffer.caret + 1) [c] (s.withPair java opener closer) =
      .ok () ((s.withPair java opener closer).caretAt (s.buffer.caret + 2)) := by
  have haligned : Aligned (s.withPair java opener closer) := h.toAligned.withPair opener closer
  have hplan : (s.withPair java opener closer).policy.planInsert
      (s.withPair java opener closer).buffer (s.buffer.caret + 1) [c] =
        ⟨s.buffer.caret + 1, [], 1⟩ :=
    EditPolicy.planInsert_between (Options.delimiters_of_policy h.policy_eq) hpair
      (h.toAligned.between_withPair opener closer) hc
  have hcaret : (s.withPair java opener closer).buffer.caret = s.buffer.caret + 1 := rfl
  have hroom := h.toAligned.caret_withPair_le opener closer
  have hplace : min ((s.withPair java opener closer).buffer.caret + (1 : Int)).toNat
      (s.withPair java opener closer).buffer.length = s.buffer.caret + 2 := by
    rw [haligned.length_eq, h.toAligned.text_withPair, hcaret]
    omega
  rw [← hplace, ← moveCaret_eq haligned 1]
  simp only [insert, Update.get_bind, hplan, hcaret]
  rfl

/-- Deleting the opening delimiter deletes both. -/
theorem remove_opener_eq :
    ∃ t, remove java s.buffer.caret 1 (s.withPair java opener closer) = .ok () t ∧
      t.buffer.text = s.buffer.text ∧ t.buffer.caret = s.buffer.caret := by
  have haligned : Aligned (s.withPair java opener closer) := h.toAligned.withPair opener closer
  have hplan : (s.withPair java opener closer).policy.planRemove
      (s.withPair java opener closer).buffer s.buffer.caret 1 = ⟨s.buffer.caret, 2⟩ :=
    EditPolicy.planRemove_opener (Options.delimiters_of_policy h.policy_eq) hpair
      (h.toAligned.charAt?_withPair opener closer 0) (h.toAligned.charAt?_withPair opener closer 1)
  have hroom : s.buffer.caret + 2 ≤ (s.withPair java opener closer).buffer.length := by
    rw [haligned.length_eq, h.toAligned.text_withPair]
    exact h.toAligned.caret_withPair_le opener closer
  have hedit : (⟨.remove, s.buffer.caret, [opener, closer]⟩ : Edit) =
      ⟨.remove, s.buffer.caret,
        ((s.withPair java opener closer).buffer.text.drop s.buffer.caret).take 2⟩ := by
    rw [h.toAligned.drop_withPair]
    rfl
  refine ⟨_, remove_of_le java haligned hplan (by simp) hroom hedit, ?_, ?_⟩
  · exact text_committed (h.toAligned.withPair_makes opener closer).inverse _ _
  · change Edit.caretAfter ⟨.remove, s.buffer.caret, [opener, closer]⟩ (s.buffer.caret + 1) = _
    simp [Edit.caretAfter, Buffer.caretAfterRemove]

theorem exists_pairTyped (houtside : ¬ s.buffer.Between s.buffer.caret opener closer) :
    ∃ t, insert java s.buffer.caret [opener] s = .ok () t ∧ PairTyped java opener closer s t := by
  refine ⟨_, insert_opener_eq h hpair houtside, ?_⟩
  constructor
  case text_eq => exact h.toAligned.text_withPair opener closer
  case caret_eq => rfl
  case history_eq => rfl
  case step_over =>
    intro c hc
    have hc : c = opener ∨ c = closer := by simpa using hc
    exact ⟨_, insert_between_eq h hpair hc, rfl, rfl, rfl⟩
  case delete => exact remove_opener_eq h hpair
  case take_back =>
    intro hlimit
    exact undo_of_record (h.toAligned.withPair opener closer) rfl (h.limit_eq ▸ hlimit)
      (h.toAligned.withPair_makes opener closer)

omit h hpair

/-! ## All sessions -/

theorem PairTyped.shown {t : Session MemoryDocument} (h : PairTyped java opener closer s t)
    (ht : Aligned t) : PairTyped java opener closer s.shown t.shown where
  text_eq := h.text_eq
  caret_eq := h.caret_eq
  history_eq := h.history_eq
  step_over c hc := by
    obtain ⟨u, hstep, hu⟩ := h.step_over c hc
    exact ⟨u.shown, (ok_shown ((lockStep_shownBy java).insert ⟨ht, rfl⟩ _ _) hstep).2, hu⟩
  delete := by
    obtain ⟨u, hdelete, hu⟩ := h.delete
    exact ⟨u.shown, (ok_shown ((lockStep_shownBy java).remove ⟨ht, rfl⟩ _ _) hdelete).2, hu⟩
  take_back hlimit := by
    obtain ⟨u, hundo, hu⟩ := h.take_back hlimit
    exact ⟨u.shown, undo_shown ht hundo, hu⟩

/-- Wherever the caret is not yet between a pair, its opening delimiter brings the pair. -/
def TypesPairs {D : Type} [Surface D] (java : ExternalParser) (s : Session D) : Prop :=
  ∀ opener closer, (opener, closer) ∈ Delimiters.standard.pairs →
    ¬ s.buffer.Between s.buffer.caret opener closer →
      ∃ t, insert java s.buffer.caret [opener] s = .ok () t ∧ PairTyped java opener closer s t

theorem Coherent.typesPairs (h : Coherent java s) : TypesPairs java s :=
  fun _ _ hmem houtside => exists_pairTyped h (Delimiters.isPair_of_mem hmem) houtside

theorem TypesPairs.shown (h : TypesPairs java s) (hs : Aligned s) : TypesPairs java s.shown := by
  intro opener closer hmem houtside
  obtain ⟨t, hinsert, htyped⟩ := h opener closer hmem houtside
  obtain ⟨ht, hshown⟩ := ok_shown ((lockStep_shownBy java).insert ⟨hs, rfl⟩ _ _) hinsert
  exact ⟨t.shown, hshown, htyped.shown ht⟩

/-- **Typing, stepping over, deleting and taking back a pair fit together**, after any operations
and for every pair of the table. -/
theorem typed_pairs (java : ExternalParser) (options : Options) (operations : List Operation) :
    (∀ s, start ({} : MemoryDocument) options = .ok s → TypesPairs java (run java operations s)) ∧
      ∀ t, start ({} : TerminalDocument) options = .ok t →
        TypesPairs java (run java operations t) := by
  refine forall_run_of_coherent java options operations ?_ ?_
  · intro s h
    exact h.typesPairs
  · intro s h
    exact h.typesPairs.shown h.toAligned

/-- In `("` a quote that is typed before the other quote brings its partner all the same, and so
does a bracket on a terminal. -/
theorem typed_pairs_before_quote :
    let operations : List Operation := [.load ['(', '"'], .setCaret 1]
    let s := run noJavaParts operations (fresh {} {})
    let t := run noJavaParts operations (fresh {} {}).shown
    start ({} : MemoryDocument) {} = .ok (fresh {} {}) ∧
      start ({} : TerminalDocument) {} = .ok (fresh {} {}).shown ∧
      (∃ u, insert noJavaParts s.buffer.caret ['"'] s = .ok () u ∧
        PairTyped noJavaParts '"' '"' s u) ∧
      ∃ u, insert noJavaParts t.buffer.caret ['「'] t = .ok () u ∧
        PairTyped noJavaParts '「' '」' t u := by
  intro operations s t
  have hpairs := typed_pairs noJavaParts {} operations
  refine ⟨rfl, rfl, ?_, ?_⟩
  · exact hpairs.1 _ rfl '"' '"' (by decide) (by decide +kernel)
  · exact hpairs.2 _ rfl '「' '」' (by decide) (by decide +kernel)

end Session

end SourceEditor

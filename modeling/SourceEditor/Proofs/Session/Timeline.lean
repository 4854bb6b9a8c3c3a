import SourceEditor.Proofs.Session.Operations
import SourceEditor.Session.Operation

/-!
# The texts of a session

A `Timeline` is what a reader of a session would write down who sees the operations and the texts
but not the history: the texts on which the edits were made, and the texts that were taken back,
both with the latest first and without any limit.

The edits of the two stacks lead through these texts (`Walks`). A session of which this holds, and
in which the stacks keep to the limit, is `Sound` for its timeline. Every operation keeps a session
sound for the timeline that goes on with it (`Sound.perform`), and so does every run (`Sound.run`).
Taking back and making again then go along the timeline (`Sound.undo`, `Sound.redo`).
-/

namespace SourceEditor

/-- The texts that the edits of a session were made on, and those that were taken back. -/
structure Timeline where
  earlier : List (List Char) := []
  later : List (List Char) := []

/-- The timeline after an operation that took the text `before` to the text `after`. -/
def Timeline.next (timeline : Timeline) (operation : Operation) (before after : List Char) :
    Timeline :=
  match operation with
  | .load _ => {}
  | .undo =>
    if after = before then timeline else ⟨timeline.earlier.tail, before :: timeline.later⟩
  | .redo =>
    if after = before then timeline else ⟨before :: timeline.earlier, timeline.later.tail⟩
  | _ => if after = before then timeline else ⟨before :: timeline.earlier, []⟩

/-- Made one after the other, edits lead from a text through the first of some texts. -/
inductive Walks : List Edit → List Char → List (List Char) → Prop
  | nil (text : List Char) (texts : List (List Char)) : Walks [] text texts
  | cons {e : Edit} {edits : List Edit} {text next : List Char} {texts : List (List Char)}
      (makes : e.Makes text next) (text_ne_nil : e.text ≠ []) (no_return : '\r' ∉ next)
      (rest : Walks edits next texts) : Walks (e :: edits) text (next :: texts)

theorem Walks.take {edits : List Edit} {text : List Char} {texts : List (List Char)}
    (h : Walks edits text texts) (n : Nat) : Walks (edits.take n) text texts := by
  induction h generalizing n with
  | nil text texts =>
    rw [List.take_nil]
    exact .nil text texts
  | cons makes text_ne_nil no_return _ ih =>
    cases n with
    | zero => exact .nil _ _
    | succ n => exact .cons makes text_ne_nil no_return (ih n)

theorem Walks.exists_makes {e : Edit} {edits : List Edit} {text : List Char}
    {texts : List (List Char)} (h : Walks (e :: edits) text texts) :
    ∃ next, e.Makes text next ∧ e.text ≠ [] := by
  cases h with
  | cons makes text_ne_nil no_return rest => exact ⟨_, makes, text_ne_nil⟩

theorem History.length_push_le {limit : Nat} {stack : List Edit} (h : stack.length ≤ limit)
    (e : Edit) : (History.push limit e stack).length ≤ limit := by
  rw [push_eq_take h]
  exact List.length_take_le limit (e :: stack)

@[simp]
theorem Edit.text_inverse (e : Edit) : e.inverse.text = e.text := by
  obtain ⟨kind, offset, text⟩ := e
  cases kind <;> rfl

/-- After one more edit, its inverse leads back to where the walk starts. -/
theorem Walks.back {edits : List Edit} {text next : List Char} {texts : List (List Char)}
    (h : Walks edits text texts) {e : Edit} (he : e.Makes text next) (hne : e.text ≠ [])
    (hreturn : '\r' ∉ text) : Walks (e.inverse :: edits) next (text :: texts) :=
  .cons he.inverse (by rwa [Edit.text_inverse]) hreturn h

namespace Session

/-- A session between two operations whose stacks follow its timeline. -/
structure Sound (java : ExternalParser) (timeline : Timeline) (s : Session MemoryDocument) : Prop
    extends Coherent java s where
  undos_le : s.history.undos.length ≤ s.history.limit
  redos_le : s.history.redos.length ≤ s.history.limit
  undos_walk : Walks (s.history.undos.map Edit.inverse) s.buffer.text timeline.earlier
  redos_walk : Walks s.history.redos s.buffer.text timeline.later

variable {java : ExternalParser} {timeline : Timeline} {s t : Session MemoryDocument}

/-! ## One operation -/

theorem Sound.of_quiet (h : Sound java timeline s) (ht : Coherent java t) (hquiet : Quiet s t) :
    Sound java timeline t where
  toCoherent := ht
  undos_le := by rw [hquiet.undos_eq, hquiet.limit_eq]; exact h.undos_le
  redos_le := by rw [hquiet.redos_eq, hquiet.limit_eq]; exact h.redos_le
  undos_walk := by rw [hquiet.undos_eq, hquiet.text_eq]; exact h.undos_walk
  redos_walk := by rw [hquiet.redos_eq, hquiet.text_eq]; exact h.redos_walk

theorem Sound.of_records (h : Sound java timeline s) (ht : Coherent java t) {e : Edit}
    (hrecords : Records s e t) : Sound java ⟨s.buffer.text :: timeline.earlier, []⟩ t where
  toCoherent := ht
  undos_le := by
    rw [hrecords.undos_eq, hrecords.limit_eq]
    exact History.length_push_le h.undos_le _
  redos_le := by
    rw [hrecords.redos_eq]
    exact Nat.zero_le _
  undos_walk := by
    rw [hrecords.undos_eq, History.push_eq_take h.undos_le, List.map_take]
    exact (h.undos_walk.back hrecords.makes hrecords.text_ne_nil h.no_return).take _
  redos_walk := by
    rw [hrecords.redos_eq]
    exact .nil _ _

/-- An operation that may record an edit adds the text before it to the timeline, if it has changed
the text. -/
theorem Sound.of_evolves (h : Sound java timeline s) (ht : Evolves java s t) :
    Sound java
      (if t.buffer.text = s.buffer.text then timeline
        else ⟨s.buffer.text :: timeline.earlier, []⟩) t := by
  obtain ⟨hcoherent, hquiet | ⟨e, hrecords⟩⟩ := ht
  · rw [if_pos hquiet.text_eq]
    exact h.of_quiet hcoherent hquiet
  · rw [if_neg (hrecords.makes.ne hrecords.text_ne_nil)]
    exact h.of_records hcoherent hrecords

/-- An edit that is made from the history, in the midst of a timeline. -/
theorem Coherent.sound_committed (h : Coherent java s) {e : Edit} {after : List Char}
    (he : e.Makes s.buffer.text after) (hne : e.text ≠ []) (hreturn : '\r' ∉ after)
    {history : History} (hlimit : history.limit = s.history.limit)
    (hundos_le : history.undos.length ≤ history.limit)
    (hredos_le : history.redos.length ≤ history.limit) {earlier later : List (List Char)}
    (hundos : Walks (history.undos.map Edit.inverse) after earlier)
    (hredos : Walks history.redos after later) :
    Sound java ⟨earlier, later⟩ (s.committed java e e.touchedStop history) where
  toCoherent := h.committed he hne hreturn he.touchedStop_le hlimit
  undos_le := hundos_le
  redos_le := hredos_le
  undos_walk := (text_committed he _ _).symm ▸ hundos
  redos_walk := (text_committed he _ _).symm ▸ hredos

/-- **Taking back** goes to the text before. -/
theorem Sound.undo (h : Sound java timeline s) {e : Edit} {rest : List Edit}
    (hundos : s.history.undos = e :: rest) :
    ∃ before earlier t, timeline.earlier = before :: earlier ∧ Session.undo java s = .ok () t ∧
      t.buffer.text = before ∧ before ≠ s.buffer.text ∧
      Sound java ⟨earlier, s.buffer.text :: timeline.later⟩ t ∧
      t.history.undos = rest ∧
      t.history.redos = History.push s.history.limit e s.history.redos ∧
      t.history.limit = s.history.limit := by
  have hle := h.undos_le
  have hwalk := h.undos_walk
  rw [hundos] at hle hwalk
  generalize hearlier : timeline.earlier = texts at hwalk
  cases hwalk with
  | @cons _ _ _ before earlier hmakes hne hreturn hrest =>
    have hback := h.redos_walk.back hmakes hne h.no_return
    rw [Edit.inverse_inverse] at hback
    refine ⟨before, earlier, _, rfl, undo_eq h.toAligned hundos hmakes, text_committed hmakes _ _,
      hmakes.ne hne, ?_, rfl, rfl, rfl⟩
    refine h.toCoherent.sound_committed hmakes hne hreturn ?_ ?_ ?_ hrest ?_
    · rfl
    · exact (Nat.le_succ _).trans hle
    · exact History.length_push_le h.redos_le _
    · rw [History.push_eq_take h.redos_le]
      exact hback.take _

/-- **Making again** goes to the text that was taken back last. -/
theorem Sound.redo (h : Sound java timeline s) {e : Edit} {rest : List Edit}
    (hredos : s.history.redos = e :: rest) :
    ∃ after later t, timeline.later = after :: later ∧ Session.redo java s = .ok () t ∧
      t.buffer.text = after ∧ after ≠ s.buffer.text ∧
      Sound java ⟨s.buffer.text :: timeline.earlier, later⟩ t ∧
      t.history.undos = History.push s.history.limit e s.history.undos ∧
      t.history.redos = rest ∧ t.history.limit = s.history.limit := by
  have hle := h.redos_le
  have hwalk := h.redos_walk
  rw [hredos] at hle hwalk
  generalize hlater : timeline.later = texts at hwalk
  cases hwalk with
  | @cons _ _ _ after later hmakes hne hreturn hrest =>
    have hback := h.undos_walk.back hmakes hne h.no_return
    refine ⟨after, later, _, rfl, redo_eq h.toAligned hredos hmakes, text_committed hmakes _ _,
      hmakes.ne hne, ?_, rfl, rfl, rfl⟩
    refine h.toCoherent.sound_committed hmakes hne hreturn ?_ ?_ ?_ ?_ hrest
    · rfl
    · exact History.length_push_le h.undos_le _
    · exact (Nat.le_succ _).trans hle
    · rw [History.push_eq_take h.undos_le, List.map_take]
      exact hback.take _

theorem Sound.load (h : Sound java timeline s) (text : List Char) :
    Sound java {} ((Session.load java text).final s) := by
  obtain ⟨t, heq, ht⟩ := load_eq h.toCoherent text
  rw [Update.final_of_ok heq]
  refine ⟨ht.toCoherent, ?_, ?_, ?_, ?_⟩ <;> rw [ht.history_eq]
  · exact Nat.zero_le _
  · exact Nat.zero_le _
  · exact .nil _ _
  · exact .nil _ _

theorem Sound.reload (h : Sound java timeline s) (options : Options) :
    Sound java timeline ((Session.reload java options).final s) ∧
      ((Session.reload java options).final s).buffer.text = s.buffer.text := by
  obtain ⟨fault, -, heq⟩ | ⟨t, heq, hcoherent, -, htext, hhistory⟩ :=
    reload_cases h.toCoherent options
  · rw [Update.final_of_error heq]
    exact ⟨h, rfl⟩
  · rw [Update.final_of_ok heq]
    refine ⟨⟨hcoherent, ?_, ?_, ?_, ?_⟩, htext⟩ <;> rw [hhistory, History.setLimit]
    · exact List.length_take_le _ _
    · exact List.length_take_le _ _
    · rw [htext, List.map_take]
      exact h.undos_walk.take _
    · rw [htext]
      exact h.redos_walk.take _

/-- **Every operation keeps a session sound**, failed ones included. -/
theorem Sound.perform (h : Sound java timeline s) (operation : Operation) :
    Sound java
      (timeline.next operation s.buffer.text ((perform java operation).final s).buffer.text)
      ((Session.perform java operation).final s) := by
  cases operation <;> simp only [Session.perform, Update.final_map, Timeline.next]
  case load text => exact h.load text
  case reload options =>
    rw [if_pos (h.reload options).2]
    exact (h.reload options).1
  case undo =>
    cases hundos : s.history.undos with
    | nil =>
      rw [Update.final_of_ok (undo_of_nil hundos), if_pos rfl]
      exact h
    | cons e rest =>
      obtain ⟨before, earlier, t, hearlier, heq, htext, hne, hsound, -⟩ := h.undo hundos
      rw [Update.final_of_ok heq, if_neg (htext ▸ hne), hearlier]
      exact hsound
  case redo =>
    cases hredos : s.history.redos with
    | nil =>
      rw [Update.final_of_ok (redo_of_nil hredos), if_pos rfl]
      exact h
    | cons e rest =>
      obtain ⟨after, later, t, hlater, heq, htext, hne, hsound, -⟩ := h.redo hredos
      rw [Update.final_of_ok heq, if_neg (htext ▸ hne), hlater]
      exact hsound
  -- what is left records an edit or leaves the text alone
  all_goals refine h.of_evolves ?_
  case insert offset text => exact h.toCoherent.evolves_insert offset text
  case remove offset count => exact h.toCoherent.evolves_remove offset count
  case clear => exact h.toCoherent.evolves_clear
  case nextLine => exact h.toCoherent.evolves_breakLine _ _ _
  case splitLine => exact h.toCoherent.evolves_breakLine _ _ _
  case newLineBefore => exact h.toCoherent.evolves_breakLine _ _ _
  case toggleLineComment => exact h.toCoherent.evolves_toggleLineComment
  case setCaret caret =>
    obtain ⟨hcoherent, hquiet⟩ := h.toCoherent.setCaret caret
    exact ⟨hcoherent, Or.inl hquiet⟩
  case switchLanguage fileName => exact h.toCoherent.evolves_switchLanguage fileName
  case setLanguage language => exact h.toCoherent.evolves_setLanguage language
  case reparse => exact h.toCoherent.evolves_reparse
  case syntaxTree => exact h.toCoherent.evolves_syntaxTree
  case markSaved => exact h.toCoherent.evolves_markSaved

/-! ## Runs -/

/-- The timeline of a run that goes on from a session with a timeline. -/
def observe (java : ExternalParser) :
    List Operation → Session MemoryDocument → Timeline → Timeline
  | [], _, timeline => timeline
  | operation :: operations, s, timeline =>
    let t := (perform java operation).final s
    observe java operations t (timeline.next operation s.buffer.text t.buffer.text)

theorem Sound.run (h : Sound java timeline s) (operations : List Operation) :
    Sound java (observe java operations s timeline) (Session.run java operations s) := by
  induction operations generalizing s timeline with
  | nil => exact h
  | cons operation operations ih => exact ih (h.perform operation)

/-- A session over a new document. -/
def fresh (options : Options) (policy : EditPolicy) : Session MemoryDocument where
  document := { lineCount := 1 }
  buffer := .empty
  policy := policy
  options := options
  cache := {}
  history := { limit := options.undoLimit }
  language := none
  tree := none
  parser := none
  lineCount := 1

theorem start_eq (options : Options) :
    start ({} : MemoryDocument) options = options.policy.map (fresh options) := by
  have hempty : Surface.length ({} : MemoryDocument) = 0 := rfl
  rw [start, if_pos hempty]
  cases options.policy <;> rfl

theorem coherent_fresh {options : Options} {policy : EditPolicy}
    (h : options.policy = .ok policy) : Coherent java (fresh options policy) where
  chars_eq := rfl
  length_eq := rfl
  caret_eq := rfl
  caret_le := Nat.le_refl 0
  styles_length := rfl
  lineCount_eq := rfl
  unlocked := rfl
  unlockedWrites_eq := rfl
  drained := rfl
  no_return := List.not_mem_nil
  lineCount_eq_count := rfl
  tabSize_eq hne := absurd rfl hne
  policy_eq := h
  limit_eq := rfl
  painted i hi := absurd hi (Nat.not_lt_zero i)

theorem exists_fresh_of_start {options : Options}
    (h : start ({} : MemoryDocument) options = .ok s) :
    ∃ policy, options.policy = .ok policy ∧ s = fresh options policy := by
  rw [start_eq] at h
  cases hpolicy : options.policy with
  | error fault =>
    rw [hpolicy] at h
    cases h
  | ok policy =>
    rw [hpolicy] at h
    cases h
    exact ⟨policy, rfl, rfl⟩

/-- A new session is sound, with nothing before and nothing after. -/
theorem sound_of_start {options : Options} (h : start ({} : MemoryDocument) options = .ok s) :
    Sound java {} s := by
  obtain ⟨policy, hpolicy, rfl⟩ := exists_fresh_of_start h
  exact ⟨coherent_fresh hpolicy, Nat.zero_le _, Nat.zero_le _, .nil _ _, .nil _ _⟩

/-! ## Back and forth -/

/-- **Back and forth.** Taking back `k` edits leads to the text before them, and making them again
leads to the same text and the same edits to take back. What could be made again before is kept as
far as there is room beside the `k` edits. -/
theorem Sound.undo_redo_times (h : Sound java timeline s) {k : Nat}
    (hk : k ≤ s.history.undos.length) :
    ∃ t u, (Session.undo java).times k s = .ok () t ∧ Aligned t ∧
      (s.buffer.text :: timeline.earlier)[k]? = some t.buffer.text ∧
      (Session.redo java).times k t = .ok () u ∧ Sound java timeline u ∧
      u.buffer.text = s.buffer.text ∧ u.history.undos = s.history.undos ∧
      u.history.redos = s.history.redos.take (s.history.limit - k) ∧
      u.history.limit = s.history.limit := by
  induction k generalizing s timeline with
  | zero =>
    refine ⟨s, s, rfl, h.toAligned, rfl, rfl, h, rfl, rfl, ?_, rfl⟩
    exact (List.take_of_length_le h.redos_le).symm
  | succ k ih =>
    obtain ⟨e, rest, hundos⟩ : ∃ e rest, s.history.undos = e :: rest :=
      List.exists_cons_of_length_pos (by omega)
    have hle := h.undos_le
    rw [hundos, List.length_cons] at hk hle
    obtain ⟨before, earlier, t₁, hearlier, hundo, htext₁, -, hsound₁, hundos₁, hredos₁, hlimit₁⟩ :=
      h.undo hundos
    obtain ⟨t, u₁, hback, haligned, htext, hforth, hsound, hsame, hundos', hredos', hlimit'⟩ :=
      ih hsound₁ (by rw [hundos₁]; omega)
    -- the edit taken back first is now the next to be made again
    have hnext : u₁.history.redos = e :: s.history.redos.take (s.history.limit - (k + 1)) := by
      have hroom : min (s.history.limit - k) s.history.limit = s.history.limit - (k + 1) + 1 := by
        omega
      rw [hredos', hlimit₁, hredos₁, History.push_eq_take h.redos_le, List.take_take, hroom,
        List.take_succ_cons]
    obtain ⟨after, later, u, hlater, hredo, htextu, -, hsoundu, hundosu, hredosu, hlimitu⟩ :=
      hsound.redo hnext
    obtain ⟨rfl, rfl⟩ : s.buffer.text = after ∧ timeline.later = later := by simpa using hlater
    refine ⟨t, u, ?_, haligned, ?_, ?_, ?_, htextu, ?_, hredosu, ?_⟩
    · rw [Update.times_succ hundo, hback]
    · rw [hearlier, List.getElem?_cons_succ, ← htext₁]
      exact htext
    · exact Update.times_succ_of_ok hforth hredo
    · rw [hsame, htext₁, ← hearlier] at hsoundu
      exact hsoundu
    · rw [hundosu, hlimit', hlimit₁, hundos', hundos₁, hundos,
        History.push_eq_take (Nat.le_of_succ_le hle), List.take_of_length_le hle]
    · rw [hlimitu, hlimit', hlimit₁]

/-- Making `j` edits again leads to the text that they had led to. -/
theorem Sound.redo_times (h : Sound java timeline s) {j : Nat} (hj : j ≤ s.history.redos.length) :
    ∃ t, (Session.redo java).times j s = .ok () t ∧ Aligned t ∧
      (s.buffer.text :: timeline.later)[j]? = some t.buffer.text := by
  induction j generalizing s timeline with
  | zero => exact ⟨s, rfl, h.toAligned, rfl⟩
  | succ j ih =>
    obtain ⟨e, rest, hredos⟩ : ∃ e rest, s.history.redos = e :: rest :=
      List.exists_cons_of_length_pos (by omega)
    rw [hredos, List.length_cons] at hj
    obtain ⟨after, later, t₁, hlater, hredo, htext₁, -, hsound₁, -, hredos₁, -⟩ := h.redo hredos
    obtain ⟨t, hforth, haligned, htext⟩ := ih hsound₁ (by rw [hredos₁]; omega)
    refine ⟨t, ?_, haligned, ?_⟩
    · rw [Update.times_succ hredo, hforth]
    · rw [hlater, List.getElem?_cons_succ, ← htext₁]
      exact htext

end Session

end SourceEditor

import SourceEditor.Proofs.Update
import SourceEditor.Session.Operation
import Mathlib.Data.List.Forall2

/-!
# Sessions in lock step

Two sessions, over documents of any two kinds, are given operations that correspond to each other.
`LockStep` says of a relation between sessions that the parts which operations are made of keep it:
edits, carets, messages, highlighting, formatting, and the change of history, language and options.
Every operation then keeps it too, and fails in one session if and only if it fails in the other
(`LockStep.perform`). So the relation holds along all runs (`LockStep.run`).

Which operations correspond is left to the relation, as far as languages and options go
(`Operation.Corresponds`). All others must be the same.
-/

namespace SourceEditor

/-- Two operations are the same, but for the languages that they select and the options that they
take, which are related. -/
inductive Operation.Corresponds (selects : Option Language → Option Language → Prop)
    (takes : Options → Options → Prop) : Operation → Operation → Prop
  | same (a : Operation) : Corresponds selects takes a a
  | switchLanguage {f f' : List Char} (h : selects (Language.detect? f) (Language.detect? f')) :
      Corresponds selects takes (.switchLanguage f) (.switchLanguage f')
  | setLanguage {l l' : Option Language} (h : selects l l') :
      Corresponds selects takes (.setLanguage l) (.setLanguage l')
  | reload {o o' : Options} (h : takes o o') : Corresponds selects takes (.reload o) (.reload o')

/-- Comments are marked in the same way everywhere. -/
theorem Language.lineComment_eq (l l' : Language) : l'.lineComment = l.lineComment := by
  cases l <;> cases l' <;> rfl

namespace Session

open Update (EndAlike)

variable {D E : Type} [Surface D] [Surface E]

/-- A relation between sessions that the parts of every operation keep. -/
structure LockStep (java : ExternalParser) (selects : Option Language → Option Language → Prop)
    (takes : Options → Options → Prop) (R : Session D → Session E → Prop) : Prop where
  buffer_eq {s t} : R s t → t.buffer = s.buffer
  policy_eq {s t} : R s t → t.policy = s.policy
  history_eq {s t} : R s t → t.history = s.history
  apply {s t} : R s t → ∀ e, EndAlike R (apply e s) (apply e t)
  setCaret {s t} : R s t → ∀ caret, EndAlike R (setCaret caret s) (setCaret caret t)
  moveCaret {s t} : R s t → ∀ delta, EndAlike R (moveCaret delta s) (moveCaret delta t)
  message {s t} : R s t → ∀ text,
    EndAlike R (onDocument (Surface.message text) s) (onDocument (Surface.message text) t)
  reparse {s t} : R s t → EndAlike R (reparse java s) (reparse java t)
  adjustFormat {s t} : R s t → ∀ start stop,
    EndAlike R (adjustFormat start stop s) (adjustFormat start stop t)
  syntaxTree {s t} : R s t → EndAlike R (syntaxTree java s) (syntaxTree java t)
  withHistory {s t} : R s t → ∀ history, R { s with history } { t with history }
  withLanguage {s t} : R s t → ∀ {l l'}, selects l l' →
    R (s.withLanguage l) (t.withLanguage l')
  withOptions {s t} : R s t → ∀ {o o'}, takes o o' → ∀ policy,
    R { s with policy, options := o } { t with policy, options := o' }
  selects_refl (l) : selects l l
  takes_refl (o) : takes o o
  policy_takes {o o'} : takes o o' → o'.policy = o.policy
  undoLimit_takes {o o'} : takes o o' → o'.undoLimit = o.undoLimit

namespace LockStep

variable {java : ExternalParser} {selects : Option Language → Option Language → Prop}
  {takes : Options → Options → Prop} {R : Session D → Session E → Prop} {s : Session D}
  {t : Session E}

/-! ## The course of an edit -/

theorem onHistory (h : LockStep java selects takes R) (hR : R s t) (change : History → History) :
    EndAlike R (onHistory change s) (onHistory change t) := by
  rw [Session.onHistory, Session.onHistory, Update.modify_apply, Update.modify_apply,
    h.history_eq hR]
  exact .ok _ _ (h.withHistory hR _)

theorem refresh (h : LockStep java selects takes R) (hR : R s t) (start stop : Nat) :
    EndAlike R (refresh java start stop s) (refresh java start stop t) :=
  (h.reparse hR).bind fun _ _ _ _ hR => h.adjustFormat hR start stop

/-- Highlighting and formatting of the whole text. -/
theorem refresh_all (h : LockStep java selects takes R) (hR : R s t) :
    EndAlike R ((get >>= fun s : Session D => Session.refresh java 0 s.buffer.length) s)
      ((get >>= fun t : Session E => Session.refresh java 0 t.buffer.length) t) := by
  rw [Update.get_bind, Update.get_bind, h.buffer_eq hR]
  exact h.refresh hR _ _

theorem finishEdit (h : LockStep java selects takes R) (hR : R s t) (e : Edit) :
    EndAlike R (finishEdit java e s) (finishEdit java e t) :=
  (h.onHistory hR (EditEvent.content e).dispatch).bind fun _ _ _ _ hR => h.refresh hR _ _

theorem apply_finishEdit (h : LockStep java selects takes R) (hR : R s t) (e : Edit) :
    EndAlike R ((Session.apply e >>= fun _ => Session.finishEdit java e) s)
      ((Session.apply e >>= fun _ => Session.finishEdit java e) t) :=
  (h.apply hR e).bind fun _ _ _ _ hR => h.finishEdit hR e

/-! ## Operations -/

theorem insert (h : LockStep java selects takes R) (hR : R s t) (offset : Nat) (text : List Char) :
    EndAlike R (insert java offset text s) (insert java offset text t) := by
  simp only [Session.insert, Update.get_bind, h.buffer_eq hR, h.policy_eq hR]
  refine .ite (fun _ => .ite (fun _ => h.moveCaret hR _) fun _ => .ok _ _ hR) fun _ => ?_
  refine .ite (fun _ => ?_) fun _ => .ok _ _ hR
  refine (h.apply hR _).bind fun _ _ _ _ hR => ?_
  refine .ite (fun _ => ?_) fun _ => h.finishEdit hR _
  exact (h.moveCaret hR _).bind fun _ _ _ _ hR => h.finishEdit hR _

theorem remove (h : LockStep java selects takes R) (hR : R s t) (offset count : Nat) :
    EndAlike R (remove java offset count s) (remove java offset count t) := by
  simp only [Session.remove, Update.get_bind, h.buffer_eq hR, h.policy_eq hR]
  refine .ite (fun _ => ?_) fun _ => .ok _ _ hR
  refine .bind_rangeStop hR _ _ _ (.bind_ofExcept hR _ fun removed _ => ?_)
  exact h.apply_finishEdit hR _

theorem clear (h : LockStep java selects takes R) (hR : R s t) :
    EndAlike R (clear java s) (clear java t) := by
  simp only [Session.clear, Update.get_bind, h.buffer_eq hR]
  exact .ite (fun _ => h.apply_finishEdit hR _) fun _ => .ok _ _ hR

theorem replaceText (h : LockStep java selects takes R) (hR : R s t) (text : List Char) :
    EndAlike R (replaceText text s) (replaceText text t) := by
  have hinsert {s : Session D} {t : Session E} (hR : R s t) :
      EndAlike R ((if text ≠ [] then Session.apply ⟨.insert, 0, text⟩ else pure ()) s)
        ((if text ≠ [] then Session.apply ⟨.insert, 0, text⟩ else pure ()) t) :=
    .ite (fun _ => h.apply hR _) fun _ => .ok _ _ hR
  simp only [Session.replaceText, Update.get_bind, h.buffer_eq hR]
  refine .ite (fun _ => ?_) fun _ => hinsert hR
  exact (h.apply hR _).bind fun _ _ _ _ hR => hinsert hR

theorem load (h : LockStep java selects takes R) (hR : R s t) (text : List Char) :
    EndAlike R (load java text s) (load java text t) := by
  refine (h.replaceText hR _).bind fun _ _ _ _ hR => ?_
  refine (h.setCaret hR 0).bind fun _ _ _ _ hR => ?_
  exact (h.onHistory hR _).bind fun _ _ _ _ hR => h.refresh_all hR

theorem replay (h : LockStep java selects takes R) (hR : R s t) (e : Edit) :
    EndAlike R (replay java e s) (replay java e t) := by
  refine (h.apply hR e).bind fun _ _ _ _ hR => ?_
  exact (h.setCaret hR _).bind fun _ _ _ _ hR => h.refresh hR _ _

theorem undo (h : LockStep java selects takes R) (hR : R s t) :
    EndAlike R (undo java s) (undo java t) := by
  simp only [Session.undo, Update.get_bind, h.history_eq hR]
  cases s.history.takeUndo? with
  | none => exact .ok _ _ hR
  | some taken => exact h.replay (h.withHistory hR taken.2) taken.1

theorem redo (h : LockStep java selects takes R) (hR : R s t) :
    EndAlike R (redo java s) (redo java t) := by
  simp only [Session.redo, Update.get_bind, h.history_eq hR]
  cases s.history.takeRedo? with
  | none => exact .ok _ _ hR
  | some taken => exact h.replay (h.withHistory hR taken.2) taken.1

theorem breakLine (h : LockStep java selects takes R) (hR : R s t) (text : String)
    (offset caret : Buffer → Nat) :
    EndAlike R (breakLine java text offset caret s) (breakLine java text offset caret t) := by
  refine (h.message hR text).bind fun _ _ s t hR => ?_
  rw [Update.get_bind, Update.get_bind, h.buffer_eq hR]
  exact (h.insert hR _ _).bind fun _ _ _ _ hR => h.setCaret hR _

/-- The mark of a comment is all that this operation reads of the language. -/
theorem toggleLineComment (h : LockStep java selects takes R) (hR : R s t) :
    EndAlike R (toggleLineComment java s) (toggleLineComment java t) := by
  have hmark := (s.language.getD .kotlin).lineComment_eq (t.language.getD .kotlin)
  simp only [Session.toggleLineComment, Update.get_bind, h.buffer_eq hR, hmark]
  refine .bind_ofExcept hR _ fun starts _ => ?_
  exact .ite (fun _ => h.remove hR _ _) fun _ => h.insert hR _ _

theorem setLanguage (h : LockStep java selects takes R) (hR : R s t) {l l' : Option Language}
    (hl : selects l l') : EndAlike R (setLanguage java l s) (setLanguage java l' t) := by
  rw [Session.setLanguage, Session.setLanguage, Update.modify_bind, Update.modify_bind]
  exact (h.reparse (h.withLanguage hR hl)).bind fun _ _ _ _ hR => .ok _ _ hR

theorem reload (h : LockStep java selects takes R) (hR : R s t) {o o' : Options}
    (ho : takes o o') : EndAlike R (reload java o s) (reload java o' t) := by
  rw [Session.reload, Session.reload, h.policy_takes ho]
  refine .bind_ofExcept hR _ fun policy _ => ?_
  rw [Update.modify_bind, Update.modify_bind, h.history_eq hR, h.undoLimit_takes ho]
  exact h.refresh_all (h.withHistory (h.withOptions hR ho policy) _)

theorem switchLanguage (h : LockStep java selects takes R) (hR : R s t) {f f' : List Char}
    (hl : selects (Language.detect? f) (Language.detect? f')) :
    EndAlike R (switchLanguage java f s) (switchLanguage java f' t) :=
  (h.setLanguage hR hl).bind fun _ _ _ _ hR => .ok _ _ hR

theorem perform_same (h : LockStep java selects takes R) (hR : R s t) (a : Operation) :
    EndAlike R (perform java a s) (perform java a t) := by
  cases a <;> refine EndAlike.map ?_ _ _
  case insert offset text => exact h.insert hR offset text
  case remove offset count => exact h.remove hR offset count
  case clear => exact h.clear hR
  case load text => exact h.load hR text
  case undo => exact h.undo hR
  case redo => exact h.redo hR
  case nextLine => exact h.breakLine hR _ _ _
  case splitLine => exact h.breakLine hR _ _ _
  case newLineBefore => exact h.breakLine hR _ _ _
  case toggleLineComment => exact h.toggleLineComment hR
  case setCaret caret => exact h.setCaret hR caret
  case switchLanguage f => exact h.switchLanguage hR (h.selects_refl _)
  case setLanguage l => exact h.setLanguage hR (h.selects_refl l)
  case reload o => exact h.reload hR (h.takes_refl o)
  case reparse => exact h.reparse hR
  case syntaxTree => exact h.syntaxTree hR
  case markSaved => exact h.onHistory hR _

/-- **One operation.** Corresponding operations on related sessions both complete or both fail, and
leave related sessions. -/
theorem perform (h : LockStep java selects takes R) (hR : R s t) {a b : Operation}
    (hab : a.Corresponds selects takes b) : EndAlike R (perform java a s) (perform java b t) := by
  cases hab with
  | same a => exact h.perform_same hR a
  | switchLanguage hl => exact (h.switchLanguage hR hl).map _ _
  | setLanguage hl => exact (h.setLanguage hR hl).map _ _
  | reload ho => exact (h.reload hR ho).map _ _

/-- **A run.** -/
theorem run (h : LockStep java selects takes R) (hR : R s t) {as bs : List Operation}
    (hops : List.Forall₂ (Operation.Corresponds selects takes) as bs) :
    R (run java as s) (run java bs t) := by
  induction hops generalizing s t with
  | nil => exact hR
  | cons hab _ ih => exact ih (h.perform hR hab).final

end LockStep

end Session

end SourceEditor

import SourceEditor.Fault

/-!
# Running updates

How updates run from a known state. A sequence of updates is followed from front to back: the
result of its first part is known, `Update.bind_of_ok` takes the run to the second part, and so on.
An update that fails ends the run (`Update.bind_of_error`).

`Update.times` repeats an update; it stops at the first failure.

Two runs can be followed side by side. They end alike (`Update.EndAlike`) if both complete or both
fail for the same reason, in states that are related; the rules for it go along the form of updates.
-/

namespace SourceEditor.Update

variable {σ τ α β : Type}

@[simp]
theorem pure_apply (a : α) (s : σ) : (pure a : Update σ α) s = .ok a s := rfl

@[simp]
theorem set_apply (t s : σ) : (set t : Update σ PUnit) s = .ok ⟨⟩ t := rfl

@[simp]
theorem modify_apply (f : σ → σ) (s : σ) : (modify f : Update σ PUnit) s = .ok ⟨⟩ (f s) := rfl

@[simp]
theorem throw_apply (fault : Fault) (s : σ) :
    (throw fault : Update σ α) s = .error fault s := rfl

theorem bind_of_ok {u : Update σ α} {f : α → Update σ β} {s t : σ} {a : α} (h : u s = .ok a t) :
    (u >>= f) s = f a t := by
  change EStateM.bind u f s = _
  rw [EStateM.bind, h]

theorem bind_of_error {u : Update σ α} {f : α → Update σ β} {s t : σ} {fault : Fault}
    (h : u s = .error fault t) : (u >>= f) s = .error fault t := by
  change EStateM.bind u f s = _
  rw [EStateM.bind, h]

@[simp]
theorem get_bind (f : σ → Update σ β) (s : σ) : (get >>= f) s = f s s := rfl

@[simp]
theorem modify_bind (g : σ → σ) (f : PUnit → Update σ β) (s : σ) :
    ((modify g : Update σ PUnit) >>= f) s = f ⟨⟩ (g s) := rfl

theorem map_of_ok {u : Update σ α} {f : α → β} {s t : σ} {a : α} (h : u s = .ok a t) :
    (f <$> u) s = .ok (f a) t := by
  change EStateM.map f u s = _
  rw [EStateM.map, h]

theorem map_of_error {u : Update σ α} {f : α → β} {s t : σ} {fault : Fault}
    (h : u s = .error fault t) : (f <$> u) s = .error fault t := by
  change EStateM.map f u s = _
  rw [EStateM.map, h]

/-! ## The state that is left -/

theorem final_of_ok {u : Update σ α} {s t : σ} {a : α} (h : u s = .ok a t) : u.final s = t := by
  rw [final, h]

theorem final_of_error {u : Update σ α} {s t : σ} {fault : Fault} (h : u s = .error fault t) :
    u.final s = t := by
  rw [final, h]

@[simp]
theorem final_map (f : α → β) (u : Update σ α) (s : σ) : (f <$> u).final s = u.final s := by
  cases h : u s with
  | ok a t => rw [final_of_ok h, final_of_ok (map_of_ok h)]
  | error fault t => rw [final_of_error h, final_of_error (map_of_error h)]

/-- A sequence leaves what its first part leaves, or goes on from there. -/
theorem final_bind_cases (u : Update σ α) (f : α → Update σ β) (s : σ) :
    (u >>= f).final s = u.final s ∨ ∃ a, (u >>= f).final s = (f a).final (u.final s) := by
  cases h : u s with
  | ok a t =>
    refine Or.inr ⟨a, ?_⟩
    rw [final_of_ok h, final, bind_of_ok h, ← final]
  | error fault t => exact Or.inl (by rw [final_of_error h, final_of_error (bind_of_error h)])

/-! ## Parts and closing steps -/

theorem on_of_ok {get : σ → τ} {set : τ → σ → σ} {part : Update τ α} {s : σ} {a : α} {t : τ}
    (h : part (get s) = .ok a t) : on get set part s = .ok a (set t s) := by
  rw [on, h]

theorem on_of_error {get : σ → τ} {set : τ → σ → σ} {part : Update τ α} {s : σ} {fault : Fault}
    {t : τ} (h : part (get s) = .error fault t) : on get set part s = .error fault (set t s) := by
  rw [on, h]

theorem lastly_of_ok {body : Update σ α} {close : Update σ Unit} {s t u : σ} {a : α}
    (hbody : body s = .ok a t) (hclose : close t = .ok () u) :
    lastly body close s = .ok a u := by
  rw [lastly, hbody]
  simp only [hclose]

theorem lastly_of_error {body : Update σ α} {close : Update σ Unit} {s t u : σ} {fault : Fault}
    (hbody : body s = .error fault t) (hclose : close t = .ok () u) :
    lastly body close s = .error fault u := by
  rw [lastly, hbody]
  simp only [hclose]

theorem lastly_of_close_error {body : Update σ α} {close : Update σ Unit} {s t u : σ} {a : α}
    {fault : Fault} (hbody : body s = .ok a t) (hclose : close t = .error fault u) :
    lastly body close s = .error fault u := by
  rw [lastly, hbody]
  simp only [hclose]

/-- The end of a range that lies inside the text can be counted. -/
theorem rangeStop_of_le {offset count length : Nat} (h : offset + count ≤ length) (s : σ) :
    rangeStop offset count length s = .ok (offset + count) s := by
  rw [rangeStop, if_pos (by omega), pure_apply]

/-- A range whose end cannot be counted, or which leaves the text. -/
theorem rangeStop_cases (offset count length : Nat) (s : σ) :
    (length < offset + count ∧ rangeStop offset count length s = .error .overflow s) ∨
      rangeStop offset count length s = .ok (offset + count) s := by
  unfold rangeStop
  split
  · exact Or.inr rfl
  · exact Or.inl ⟨by omega, rfl⟩

/-! ## Repetition -/

/-- Runs an update a number of times. -/
def times (u : Update σ Unit) : Nat → Update σ Unit
  | 0 => pure ()
  | n + 1 => do
    u
    times u n

theorem times_zero (u : Update σ Unit) (s : σ) : u.times 0 s = .ok () s := rfl

theorem times_succ {u : Update σ Unit} {s t : σ} (h : u s = .ok () t) (n : Nat) :
    u.times (n + 1) s = u.times n t :=
  bind_of_ok h

/-- Once more after `n` times. -/
theorem times_succ_of_ok {u : Update σ Unit} {n : Nat} {s t v : σ} (h : u.times n s = .ok () t)
    (hlast : u t = .ok () v) : u.times (n + 1) s = .ok () v := by
  induction n generalizing s with
  | zero =>
    obtain rfl : s = t := by simpa [times] using h
    rw [times_succ hlast, times_zero]
  | succ n ih =>
    cases hfirst : u s with
    | ok _ s' =>
      rw [times_succ hfirst] at h
      rw [times_succ hfirst, ih h]
    | error fault s' =>
      rw [times, bind_of_error hfirst] at h
      cases h

/-! ## Two runs -/

/-- Two runs end alike: both complete, or both fail for the same reason, and the states that they
leave are related. What they give back may differ. -/
inductive EndAlike (R : σ → τ → Prop) :
    EStateM.Result Fault σ α → EStateM.Result Fault τ β → Prop
  | ok (a : α) (b : β) {s : σ} {t : τ} (related : R s t) : EndAlike R (.ok a s) (.ok b t)
  | error (fault : Fault) {s : σ} {t : τ} (related : R s t) :
      EndAlike R (.error fault s) (.error fault t)

namespace EndAlike

variable {α' β' : Type} {R : σ → τ → Prop} {u : Update σ α} {v : Update τ β} {s : σ} {t : τ}

theorem result_cases {x : EStateM.Result Fault σ α} {y : EStateM.Result Fault τ β}
    (h : EndAlike R x y) :
    (∃ a b s t, x = .ok a s ∧ y = .ok b t ∧ R s t) ∨
      ∃ fault s t, x = .error fault s ∧ y = .error fault t ∧ R s t := by
  cases h with
  | ok a b related => exact Or.inl ⟨a, b, _, _, rfl, rfl, related⟩
  | error fault related => exact Or.inr ⟨fault, _, _, rfl, rfl, related⟩

theorem final (h : EndAlike R (u s) (v t)) : R (u.final s) (v.final t) := by
  obtain ⟨a, b, s', t', hu, hv, related⟩ | ⟨fault, s', t', hu, hv, related⟩ := h.result_cases
  · rw [final_of_ok hu, final_of_ok hv]
    exact related
  · rw [final_of_error hu, final_of_error hv]
    exact related

theorem fails_eq (h : EndAlike R (u s) (v t)) : u.fails s = v.fails t := by
  obtain ⟨a, b, s', t', hu, hv, -⟩ | ⟨fault, s', t', hu, hv, -⟩ := h.result_cases
  · rw [fails, fails, hu, hv]
  · rw [fails, fails, hu, hv]

theorem bind {f : α → Update σ α'} {g : β → Update τ β'} (h : EndAlike R (u s) (v t))
    (hnext : ∀ a b s t, R s t → EndAlike R (f a s) (g b t)) :
    EndAlike R ((u >>= f) s) ((v >>= g) t) := by
  obtain ⟨a, b, s', t', hu, hv, related⟩ | ⟨fault, s', t', hu, hv, related⟩ := h.result_cases
  · rw [bind_of_ok hu, bind_of_ok hv]
    exact hnext a b s' t' related
  · rw [bind_of_error hu, bind_of_error hv]
    exact .error fault related

theorem map (h : EndAlike R (u s) (v t)) (f : α → α') (g : β → β') :
    EndAlike R ((f <$> u) s) ((g <$> v) t) := by
  obtain ⟨a, b, s', t', hu, hv, related⟩ | ⟨fault, s', t', hu, hv, related⟩ := h.result_cases
  · rw [map_of_ok hu, map_of_ok hv]
    exact .ok _ _ related
  · rw [map_of_error hu, map_of_error hv]
    exact .error fault related

theorem ite {c : Prop} [Decidable c] {u' : Update σ α} {v' : Update τ β}
    (hpos : c → EndAlike R (u s) (v t)) (hneg : ¬ c → EndAlike R (u' s) (v' t)) :
    EndAlike R ((if c then u else u') s) ((if c then v else v') t) := by
  by_cases hc : c
  · rw [if_pos hc, if_pos hc]
    exact hpos hc
  · rw [if_neg hc, if_neg hc]
    exact hneg hc

/-- A result that needs no state is the same in both runs. -/
theorem bind_ofExcept {f : α → Update σ α'} {g : α → Update τ β'} (related : R s t)
    (x : Except Fault α) (hnext : ∀ a, x = .ok a → EndAlike R (f a s) (g a t)) :
    EndAlike R ((ofExcept x >>= f) s) ((ofExcept x >>= g) t) := by
  cases x with
  | ok a => exact hnext a rfl
  | error fault => exact .error fault related

theorem bind_rangeStop {f : Nat → Update σ α'} {g : Nat → Update τ β'} (related : R s t)
    (offset count length : Nat) (hnext : EndAlike R (f (offset + count) s) (g (offset + count) t)) :
    EndAlike R ((rangeStop offset count length >>= f) s)
      ((rangeStop offset count length >>= g) t) := by
  unfold rangeStop
  split
  · exact hnext
  · exact .error .overflow related

variable {σ' τ' : Type} {P : σ' → τ' → Prop}

/-- Updates of parts. -/
theorem on {get : σ → σ'} {set : σ' → σ → σ} {get' : τ → τ'} {set' : τ' → τ → τ}
    {part : Update σ' α} {part' : Update τ' β} (h : EndAlike P (part (get s)) (part' (get' t)))
    (hset : ∀ x y, P x y → R (set x s) (set' y t)) :
    EndAlike R (Update.on get set part s) (Update.on get' set' part' t) := by
  obtain ⟨a, b, x, y, hu, hv, related⟩ | ⟨fault, x, y, hu, hv, related⟩ := h.result_cases
  · rw [on_of_ok hu, on_of_ok hv]
    exact .ok a b (hset x y related)
  · rw [on_of_error hu, on_of_error hv]
    exact .error fault (hset x y related)

end EndAlike

end SourceEditor.Update

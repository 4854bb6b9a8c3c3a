import SourceEditor.Proofs.Token.Coverage
import Mathlib.Computability.RegularExpressions
import Mathlib.Data.List.TakeWhile

/-!
# Longest matches

`Longest r text n` says that the first `n` characters of a text are the longest of its prefixes that
match a regular expression. A reader that goes from part to part, and takes as much as it can of
each, finds the longest match of the whole only if no part could have stopped earlier in favour of
the next. `Longest.mul` is that step: it is enough that no character of the one part starts a match
of the other.

Which characters a regular expression is made of (`letters`), which of them a match starts with
(`firsts`) and of which a match needs one (`needs`) is computed from the expression, so that these
conditions are decided.
-/

namespace SourceEditor.Regular

/-! ## Expressions for single characters -/

/-- A match is one of the characters. -/
def oneOf : List Char → RegularExpression Char
  | [] => 0
  | c :: cs => .char c + oneOf cs

/-- A match is one of the expression or nothing. -/
def optional (r : RegularExpression Char) : RegularExpression Char := 1 + r

variable {r s : RegularExpression Char} {text w : List Char} {c : Char} {cs : List Char} {n m : Nat}

theorem mem_oneOf : w ∈ (oneOf cs).matches' ↔ ∃ c ∈ cs, w = [c] := by
  induction cs with
  | nil => simp [oneOf]
  | cons c cs ih =>
    rw [oneOf, RegularExpression.matches'_add, Language.mem_add, ih, List.exists_mem_cons_iff]
    exact Iff.rfl

theorem mem_oneOf_mul :
    w ∈ (oneOf cs * s).matches' ↔ ∃ c ∈ cs, ∃ v ∈ s.matches', w = c :: v := by
  rw [RegularExpression.matches'_mul, Language.mem_mul]
  constructor
  · rintro ⟨a, ha, v, hv, rfl⟩
    obtain ⟨c, hc, rfl⟩ := mem_oneOf.mp ha
    exact ⟨c, hc, v, hv, rfl⟩
  · rintro ⟨c, hc, v, hv, rfl⟩
    exact ⟨[c], mem_oneOf.mpr ⟨c, hc, rfl⟩, v, hv, rfl⟩

theorem mem_star_oneOf : w ∈ (RegularExpression.star (oneOf cs)).matches' ↔ ∀ c ∈ w, c ∈ cs := by
  constructor
  · rintro ⟨words, rfl, hwords⟩ c hc
    obtain ⟨word, hword, hc⟩ := List.mem_flatten.mp hc
    obtain ⟨d, hd, rfl⟩ := mem_oneOf.mp (hwords word hword)
    rwa [List.mem_singleton.mp hc]
  · intro h
    refine ⟨w.map fun c => [c], (List.flatMap_singleton' w).symm, fun word hword => ?_⟩
    obtain ⟨c, hc, rfl⟩ := List.mem_map.mp hword
    exact mem_oneOf.mpr ⟨c, h c hc, rfl⟩

theorem mem_optional : w ∈ (optional r).matches' ↔ w = [] ∨ w ∈ r.matches' := by
  rw [optional, RegularExpression.matches'_add, Language.mem_add]
  exact Iff.rfl

/-- Matches of two expressions, one after the other. -/
theorem take_add_mem_mul (hr : text.take n ∈ r.matches')
    (hs : (text.drop n).take m ∈ s.matches') : text.take (n + m) ∈ (r * s).matches' := by
  rw [List.take_add]
  exact Language.append_mem_mul hr hs

/-- Matches of two expressions, one after the other, where the first character is given apart. -/
theorem take_cons_mem_mul (hr : (c :: text).take (n + 1) ∈ r.matches')
    (hs : (text.drop n).take m ∈ s.matches') : (c :: text).take (n + m + 1) ∈ (r * s).matches' := by
  rw [Nat.add_right_comm]
  exact take_add_mem_mul hr hs

/-! ## The characters of a match -/

/-- The characters that an expression is made of. -/
def letters : RegularExpression Char → List Char
  | .zero | .epsilon => []
  | .char c => [c]
  | .plus r s | .comp r s => letters r ++ letters s
  | .star r => letters r

/-- The characters that a match may start with. -/
def firsts : RegularExpression Char → List Char
  | .zero | .epsilon => []
  | .char c => [c]
  | .plus r s => firsts r ++ firsts s
  | .comp r s => if r.matchEpsilon then firsts r ++ firsts s else firsts r
  | .star r => firsts r

/-- Whether every match has one of the characters. -/
def needs (cs : List Char) : RegularExpression Char → Bool
  | .zero => true
  | .epsilon | .star _ => false
  | .char c => cs.contains c
  | .plus r s => needs cs r && needs cs s
  | .comp r s => needs cs r || needs cs s

theorem mem_letters (h : w ∈ r.matches') : ∀ c ∈ w, c ∈ letters r := by
  induction r generalizing w with
  | zero => exact absurd h (Language.notMem_zero w)
  | epsilon =>
    obtain rfl : w = [] := h
    simp
  | char c =>
    obtain rfl : w = [c] := h
    exact fun _ h => h
  | plus r s ihr ihs =>
    rcases h with h | h
    · exact fun c hc => List.mem_append_left _ (ihr h c hc)
    · exact fun c hc => List.mem_append_right _ (ihs h c hc)
  | comp r s ihr ihs =>
    obtain ⟨a, ha, b, hb, rfl⟩ := Language.mem_mul.mp h
    refine List.forall_mem_append.mpr ⟨fun c hc => ?_, fun c hc => ?_⟩
    · exact List.mem_append_left _ (ihr ha c hc)
    · exact List.mem_append_right _ (ihs hb c hc)
  | star r ih =>
    obtain ⟨words, rfl, hwords⟩ := h
    intro c hc
    obtain ⟨word, hword, hc⟩ := List.mem_flatten.mp hc
    exact ih (hwords word hword) c hc

theorem mem_firsts (h : c :: w ∈ r.matches') : c ∈ firsts r := by
  induction r generalizing w with
  | zero => exact absurd h (Language.notMem_zero _)
  | epsilon => cases h
  | char d =>
    obtain ⟨rfl, -⟩ := List.cons.inj (show c :: w = [d] from h)
    exact List.mem_singleton_self c
  | plus r s ihr ihs =>
    rcases h with h | h
    · exact List.mem_append_left _ (ihr h)
    · exact List.mem_append_right _ (ihs h)
  | comp r s ihr ihs =>
    obtain ⟨a, ha, b, hb, hab⟩ := Language.mem_mul.mp h
    rw [firsts]
    cases a with
    | nil =>
      have hempty : r.matchEpsilon = true := (RegularExpression.rmatch_iff_matches' r []).mpr ha
      obtain rfl : b = c :: w := hab
      rw [if_pos hempty]
      exact List.mem_append_right _ (ihs hb)
    | cons d a =>
      obtain ⟨rfl, -⟩ := List.cons.inj hab
      split
      · exact List.mem_append_left _ (ihr ha)
      · exact ihr ha
  | star r ih =>
    obtain ⟨words, hflatten, hwords⟩ := Language.mem_kstar_iff_exists_nonempty.mp h
    cases words with
    | nil => cases hflatten
    | cons word words =>
      obtain ⟨hword, hne⟩ := hwords word List.mem_cons_self
      obtain ⟨d, word, rfl⟩ := List.exists_cons_of_ne_nil hne
      obtain ⟨rfl, -⟩ := List.cons.inj hflatten
      exact ih hword

theorem exists_mem_of_needs (hr : needs cs r = true) (h : w ∈ r.matches') : ∃ c ∈ w, c ∈ cs := by
  induction r generalizing w with
  | zero => exact absurd h (Language.notMem_zero w)
  | epsilon => cases hr
  | char c =>
    obtain rfl : w = [c] := h
    exact ⟨c, List.mem_singleton_self c, List.contains_iff_mem.mp hr⟩
  | plus r s ihr ihs =>
    obtain ⟨hr, hs⟩ := Bool.and_eq_true_iff.mp hr
    rcases h with h | h
    · exact ihr hr h
    · exact ihs hs h
  | comp r s ihr ihs =>
    obtain ⟨a, ha, b, hb, rfl⟩ := Language.mem_mul.mp h
    rcases Bool.or_eq_true_iff.mp hr with hr | hs
    · obtain ⟨c, hc, hmem⟩ := ihr hr ha
      exact ⟨c, List.mem_append_left b hc, hmem⟩
    · obtain ⟨c, hc, hmem⟩ := ihs hs hb
      exact ⟨c, List.mem_append_right a hc, hmem⟩
  | star r => cases hr

/-- Whether an expression is made without the characters. -/
def lacks (cs : List Char) (r : RegularExpression Char) : Bool :=
  (letters r).all fun c => !cs.contains c

theorem notMem_of_lacks (h : lacks cs r = true) (hc : c ∈ letters r) : c ∉ cs := by
  simpa using List.all_eq_true.mp h c hc

/-- A text does not match both an expression that needs one of the characters and one that has none
of them. -/
theorem false_of_needs_of_lacks (cs : List Char) (hr : needs cs r = true) (hs : lacks cs s = true)
    (hwr : w ∈ r.matches') (hws : w ∈ s.matches') : False := by
  obtain ⟨c, hc, hmem⟩ := exists_mem_of_needs hr hwr
  exact notMem_of_lacks hs (mem_letters hws c hc) hmem

/-- Whether no character of the one expression starts a match of the other. -/
def apart (r s : RegularExpression Char) : Bool := lacks (firsts s) r

/-! ## Longest matches -/

/-- The first `n` characters of a text are the longest of its prefixes that match. -/
structure Longest (r : RegularExpression Char) (text : List Char) (n : Nat) : Prop where
  le_length : n ≤ text.length
  mem : text.take n ∈ r.matches'
  length_le : ∀ w ∈ r.matches', w <+: text → w.length ≤ n

/-- No prefix of a text matches. -/
def NoMatch (r : RegularExpression Char) (text : List Char) : Prop :=
  ∀ w ∈ r.matches', ¬ w <+: text

/-- The length of the longest match, and none if there is no match. -/
def Reads (r : RegularExpression Char) (text : List Char) (n : Nat) : Prop :=
  (0 < n ∧ Longest r text n) ∨ (n = 0 ∧ NoMatch r text)

theorem noMatch_oneOf_mul_nil : NoMatch (oneOf cs * s) [] := by
  intro w hw hfront
  obtain ⟨c, -, v, -, rfl⟩ := mem_oneOf_mul.mp hw
  simp at hfront

theorem noMatch_oneOf_mul_cons (h : c ∈ cs → NoMatch s text) :
    NoMatch (oneOf cs * s) (c :: text) := by
  intro w hw hfront
  obtain ⟨d, hd, v, hv, rfl⟩ := mem_oneOf_mul.mp hw
  obtain ⟨rfl, htail⟩ := List.cons_prefix_cons.mp hfront
  exact h hd v hv htail

theorem NoMatch.add (hr : NoMatch r text) (hs : NoMatch s text) : NoMatch (r + s) text := by
  rintro w (hw | hw)
  · exact hr w hw
  · exact hs w hw

theorem NoMatch.mul (h : NoMatch r text) : NoMatch (r * s) text := by
  intro w hw hfront
  obtain ⟨a, ha, b, -, rfl⟩ := Language.mem_mul.mp hw
  exact h a ha ((List.prefix_append a b).trans hfront)

theorem noMatch_optional_mul (hs : NoMatch s text) (hrs : NoMatch (r * s) text) :
    NoMatch (optional r * s) text := by
  intro w hw hfront
  obtain ⟨a, ha, b, hb, rfl⟩ := Language.mem_mul.mp hw
  rcases mem_optional.mp ha with rfl | ha
  · exact hs b hb hfront
  · exact hrs _ (Language.append_mem_mul ha hb) hfront

namespace Longest

theorem single (hc : c ∈ cs) (text : List Char) : Longest (oneOf cs) (c :: text) 1 where
  le_length := by simp
  mem := mem_oneOf.mpr ⟨c, hc, rfl⟩
  length_le w hw _ := by
    obtain ⟨d, -, rfl⟩ := mem_oneOf.mp hw
    exact Nat.le_refl 1

theorem oneOf_mul (hc : c ∈ cs) (h : Longest s text n) :
    Longest (oneOf cs * s) (c :: text) (n + 1) where
  le_length := Nat.succ_le_succ h.le_length
  mem := mem_oneOf_mul.mpr ⟨c, hc, text.take n, h.mem, rfl⟩
  length_le w hw hfront := by
    obtain ⟨d, -, v, hv, rfl⟩ := mem_oneOf_mul.mp hw
    exact Nat.succ_le_succ (h.length_le v hv (List.cons_prefix_cons.mp hfront).2)

theorem star_oneOf {p : Char → Bool} (hp : ∀ c, p c = true ↔ c ∈ cs) (text : List Char) :
    Longest (.star (oneOf cs)) text (Number.countWhile p text) where
  le_length := Number.countWhile_le p text
  mem := by
    have htake : text.take (Number.countWhile p text) = text.takeWhile p :=
      (List.prefix_iff_eq_take.mp (List.takeWhile_prefix p)).symm
    rw [htake, mem_star_oneOf]
    exact fun c hc => (hp c).mp (List.mem_takeWhile_imp hc)
  length_le w hw hfront := by
    obtain ⟨rest, rfl⟩ := hfront
    have hall : ∀ c ∈ w, p c = true := fun c hc => (hp c).mpr (mem_star_oneOf.mp hw c hc)
    rw [Number.countWhile, List.takeWhile_append_of_pos hall, List.length_append]
    exact Nat.le_add_right _ _

theorem toOptional (h : Longest r text n) : Longest (optional r) text n where
  le_length := h.le_length
  mem := mem_optional.mpr (Or.inr h.mem)
  length_le w hw hfront := by
    rcases mem_optional.mp hw with rfl | hw
    · exact Nat.zero_le n
    · exact h.length_le w hw hfront

/-- An alternative that matches nothing longer. -/
theorem add_left (h : Longest r text n) (hs : ∀ w ∈ s.matches', w <+: text → w.length ≤ n) :
    Longest (r + s) text n where
  le_length := h.le_length
  mem := Or.inl h.mem
  length_le w hw hfront := by
    rcases hw with hw | hw
    · exact h.length_le w hw hfront
    · exact hs w hw hfront

/-- An alternative that does not match. -/
theorem add_right (h : Longest s text n) (hr : NoMatch r text) : Longest (r + s) text n where
  le_length := h.le_length
  mem := Or.inr h.mem
  length_le w hw hfront := by
    rcases hw with hw | hw
    · exact absurd hfront (hr w hw)
    · exact h.length_le w hw hfront

/-- **Part after part**, each as long as it can be. -/
theorem mul (h : Longest r text n) (h' : Longest s (text.drop n) m) (hapart : apart r s = true) :
    Longest (r * s) text (n + m) where
  le_length := Number.add_le_length h.le_length h'.le_length
  mem := take_add_mem_mul h.mem h'.mem
  length_le w hw hfront := by
    obtain ⟨a, ha, b, hb, rfl⟩ := Language.mem_mul.mp hw
    have hle := h.length_le a ha ((List.prefix_append a b).trans hfront)
    rw [List.length_append]
    cases b with
    | nil => exact Nat.le_add_right_of_le hle
    | cons d b =>
      rcases Nat.lt_or_eq_of_le hle with hlt | rfl
      · -- a match that stops early goes on with a character of the longest match of `r`
        have hlonger : a ++ [d] <+: text.take n := by
          refine List.prefix_take_iff.mpr ⟨?_, by rwa [List.length_append]⟩
          exact (List.append_cons a d b ▸ List.prefix_append (a ++ [d]) b).trans hfront
        have hd : d ∈ letters r := mem_letters h.mem d (hlonger.subset (by simp))
        exact absurd (mem_firsts hb) (notMem_of_lacks hapart hd)
      · obtain ⟨rest, rfl⟩ := hfront
        refine Nat.add_le_add_left (h'.length_le _ hb ?_) _
        rw [List.append_assoc, List.drop_left]
        exact List.prefix_append _ _

/-- Part after part, where the first character is given apart. -/
theorem mul_cons (h : Longest r (c :: text) (n + 1)) (h' : Longest s (text.drop n) m)
    (hapart : apart r s = true) : Longest (r * s) (c :: text) (n + m + 1) := by
  have hmul := h.mul (m := m) h' hapart
  rwa [Nat.add_right_comm] at hmul

end Longest

namespace Reads

theorem single {p : Char → Bool} (hp : ∀ c, p c = true ↔ c ∈ cs) (text : List Char) :
    Reads (oneOf cs) text (Number.countOne p text) := by
  cases text with
  | nil =>
    refine Or.inr ⟨rfl, fun w hw hfront => ?_⟩
    obtain ⟨c, -, rfl⟩ := mem_oneOf.mp hw
    simp at hfront
  | cons c text =>
    rw [Number.countOne]
    split
    · next h => exact Or.inl ⟨Nat.one_pos, .single ((hp c).mp h) text⟩
    · next h =>
      refine Or.inr ⟨rfl, fun w hw hfront => h ?_⟩
      obtain ⟨d, hd, rfl⟩ := mem_oneOf.mp hw
      rw [← (List.cons_prefix_cons.mp hfront).1]
      exact (hp d).mpr hd

theorem longest (h : Reads r text n) (hn : 0 < n) : Longest r text n := by
  rcases h with ⟨-, h⟩ | ⟨rfl, -⟩
  · exact h
  · exact absurd hn (Nat.lt_irrefl 0)

/-- A part that may be left out. -/
theorem longest_optional (h : Reads r text n) : Longest (optional r) text n := by
  rcases h with ⟨-, h⟩ | ⟨rfl, h⟩
  · exact h.toOptional
  · refine ⟨Nat.zero_le _, mem_optional.mpr (Or.inl rfl), fun w hw hfront => ?_⟩
    rcases mem_optional.mp hw with rfl | hw
    · exact Nat.le_refl 0
    · exact absurd hfront (h w hw)

end Reads

end SourceEditor.Regular

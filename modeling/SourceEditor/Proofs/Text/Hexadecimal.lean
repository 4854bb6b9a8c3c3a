import SourceEditor.Text.Hexadecimal
import SourceEditor.Text.Offset
import Mathlib.Data.List.Forall2

/-!
# Numbers in base sixteen

`IsDigit d v` says that a character is the digit of a value, in either case. These are the
characters that are read as digits (`digit?_eq_some_iff`), and a number is read from a list of
characters exactly if all of them are digits (`read?_eq_some_iff`). What is written for a number is
read as that number (`read?_write`).
-/

namespace SourceEditor.Hexadecimal

/-! ## Digits -/

/-- The digits in lower case, each at the place of its value. -/
def alphabet : List Char :=
  ['0', '1', '2', '3', '4', '5', '6', '7', '8', '9', 'a', 'b', 'c', 'd', 'e', 'f']

/-- The character is the digit of a value, in either case. -/
def IsDigit (d : Char) (v : Nat) : Prop := alphabet[v]? = some d.toLower

theorem digit?_digit : ∀ n < 16, digit? (digit n) = some n := by decide

theorem digit?_upperDigit : ∀ n < 16, digit? (upperDigit n) = some n := by decide

theorem toNat_digit : ∀ n < 16, (digit n).toNat = if n < 10 then 48 + n else 87 + n := by decide

theorem isDigit_iff {d : Char} {v : Nat} : IsDigit d v ↔ v < 16 ∧ d.toLower = digit v := by
  have halphabet : ∀ v < 16, alphabet[v]? = some (digit v) := by decide
  rw [IsDigit]
  by_cases hv : v < 16
  · rw [halphabet v hv, Option.some_inj, eq_comm]
    exact (and_iff_right hv).symm
  · rw [List.getElem?_eq_none (Nat.not_lt.mp hv)]
    simp [hv]

theorem toNat_toLower (c : Char) :
    c.toLower.toNat = if 65 ≤ c.toNat ∧ c.toNat ≤ 90 then c.toNat + 32 else c.toNat := by
  have hupper : (c.val ≥ 'A'.val ∧ c.val ≤ 'Z'.val) ↔ 65 ≤ c.toNat ∧ c.toNat ≤ 90 := by
    rw [ge_iff_le, UInt32.le_iff_toNat_le, UInt32.le_iff_toNat_le]
    rfl
  unfold Char.toLower
  split
  · next h =>
    have hc : 65 ≤ c.val.toNat ∧ c.val.toNat ≤ 90 := hupper.mp h
    rw [if_pos (hupper.mp h)]
    change (c.val.toNat + 32) % 2 ^ 32 = c.val.toNat + 32
    omega
  · next h => rw [if_neg (mt hupper.mpr h)]

theorem digit?_eq_some_iff {d : Char} {v : Nat} : digit? d = some v ↔ IsDigit d v := by
  have hle (c d : Char) : c ≤ d ↔ c.toNat ≤ d.toNat := by
    rw [Char.le_def, UInt32.le_iff_toNat_le]
    rfl
  have hdigit := toNat_digit v
  simp only [digit?, Bool.and_eq_true, decide_eq_true_iff, hle, Char.reduceToNat]
  rw [isDigit_iff, ← Char.toNat_inj, toNat_toLower]
  grind

namespace IsDigit

variable {d : Char} {v : Nat} (h : IsDigit d v)
include h

theorem lt : v < 16 := (isDigit_iff.mp h).1

theorem toLower_eq : d.toLower = digit v := (isDigit_iff.mp h).2

/-- No other letters have a digit as their lower case. -/
theorem utf8Size_eq : d.utf8Size = 1 := by
  have hlt := h.lt
  have hdigit := toNat_digit v hlt
  rw [← h.toLower_eq, toNat_toLower] at hdigit
  rw [Char.utf8Size_eq_one_iff, UInt32.le_iff_toNat_le]
  change d.toNat ≤ 127
  grind

end IsDigit

/-! ## Numbers -/

/-- The number that the values of digits stand for, where `acc` is the value of the digits
before. -/
def ofValues (acc : Nat) (values : List Nat) : Nat := values.foldl (fun n v => 16 * n + v) acc

theorem read?_eq_some_iff {acc n : Nat} {ds : List Char} :
    read? acc ds = some n ↔ ∃ values, List.Forall₂ IsDigit ds values ∧ ofValues acc values = n := by
  induction ds generalizing acc with
  | nil => simp [read?, ofValues]
  | cons d ds ih =>
    simp only [read?, Option.bind_eq_some_iff, ih, List.forall₂_cons_left_iff, digit?_eq_some_iff]
    constructor
    · rintro ⟨v, hv, values, hvalues, hn⟩
      exact ⟨v :: values, ⟨v, values, hv, hvalues, rfl⟩, hn⟩
    · rintro ⟨_, ⟨v, values, hv, hvalues, rfl⟩, hn⟩
      exact ⟨v, hv, values, hvalues, hn⟩

section Digits

variable {ds : List Char} {values : List Nat} (h : List.Forall₂ IsDigit ds values)
include h

theorem byteLength_of_isDigit : byteLength ds = values.length := by
  induction h with
  | nil => rfl
  | cons hd _ ih => rw [byteLength, hd.utf8Size_eq, ih, List.length_cons, Nat.add_comm]

theorem forall_lt_of_isDigit : ∀ v ∈ values, v < 16 := by
  induction h with
  | nil => simp
  | cons hd _ ih => exact List.forall_mem_cons.mpr ⟨hd.lt, ih⟩

theorem map_toLower_of_isDigit : ds.map Char.toLower = values.map digit := by
  induction h with
  | nil => rfl
  | cons hd _ ih => rw [List.map_cons, List.map_cons, hd.toLower_eq, ih]

end Digits

theorem read?_append (acc : Nat) (front back : List Char) :
    read? acc (front ++ back) = (read? acc front).bind (read? · back) := by
  induction front generalizing acc with
  | nil => rfl
  | cons d ds ih =>
    rw [List.cons_append, read?, read?]
    cases digit? d with
    | none => rfl
    | some v => exact ih _

theorem read?_write (n : Nat) : read? 0 (write n) = some n := by
  fun_induction write n with
  | case1 n h => rw [read?, digit?_digit n h, Option.bind_some, read?, Nat.mul_zero, Nat.zero_add]
  | case2 n h ih =>
    rw [read?_append, ih, Option.bind_some, read?, digit?_digit _ (Nat.mod_lt n (by decide)),
      Option.bind_some, read?, Nat.div_add_mod]

theorem isSome_digit?_of_mem_write {n : Nat} {c : Char} (hc : c ∈ write n) :
    (digit? c).isSome = true := by
  fun_induction write n with
  | case1 n h =>
    rw [List.mem_singleton] at hc
    rw [hc, digit?_digit n h, Option.isSome_some]
  | case2 n h ih =>
    rw [List.mem_append, List.mem_singleton] at hc
    rcases hc with hc | rfl
    · exact ih hc
    · rw [digit?_digit _ (Nat.mod_lt n (by decide)), Option.isSome_some]

end SourceEditor.Hexadecimal

import SourceEditor.Proofs.Text.Hexadecimal
import SourceEditor.Style.Color

/-!
# Colors as text

The written form of a color is a mark and six digits, and `Color.Writes` says that a text is this
form, in either case. Such a text is read as its color, but it is not all that is read: the digits
are handed to a reader of numbers, for which a plus sign may come before them, and so `#+12345` is
taken for `#012345` (`read?_plus`). Apart from this sign the texts that are read are the written
forms (`read?_iff_writes_or_plus`).
-/

namespace SourceEditor.Color

open Hexadecimal (IsDigit ofValues)

/-- Six digits that stand for a color, two for each component. -/
def Spells (ds : List Char) (c : Color) : Prop :=
  ∃ r r' g g' b b', List.Forall₂ IsDigit ds [r, r', g, g', b, b'] ∧
    c.red.toNat = 16 * r + r' ∧ c.green.toNat = 16 * g + g' ∧ c.blue.toNat = 16 * b + b'

/-- The text is a mark and six digits that stand for a color. -/
def Writes (text : List Char) (c : Color) : Prop := ∃ ds, text = '#' :: ds ∧ Spells ds c

variable {c : Color} {ds text : List Char}

/-! ## Six digits -/

theorem ofNat_ofValues {r r' g g' b b' : Nat} (h : ∀ v ∈ [r, r', g, g', b, b'], v < 16) :
    ofNat (ofValues 0 [r, r', g, g', b, b']) = c ↔
      c.red.toNat = 16 * r + r' ∧ c.green.toNat = 16 * g + g' ∧ c.blue.toNat = 16 * b + b' := by
  simp only [List.forall_mem_cons] at h
  obtain ⟨red, green, blue⟩ := c
  simp only [ofNat, ofValues, List.foldl_cons, List.foldl_nil, mk.injEq, ← UInt8.toNat_inj,
    UInt8.toNat_ofNat']
  omega

/-- Two digits are all that is written for a component. -/
theorem component_eq {x : UInt8} {v v' : Nat} (h : x.toNat = 16 * v + v') (hv : v' < 16) :
    component x = [Hexadecimal.digit v, Hexadecimal.digit v'] := by
  have hhigh : x.toNat / 16 = v := by omega
  have hlow : x.toNat % 16 = v' := by omega
  rw [component, hhigh, hlow]

theorem Spells.toChars_eq (h : Spells ds c) : c.toChars = '#' :: ds.map Char.toLower := by
  obtain ⟨r, r', g, g', b, b', hdigits, hred, hgreen, hblue⟩ := h
  have hlt := Hexadecimal.forall_lt_of_isDigit hdigits
  simp only [List.forall_mem_cons] at hlt
  obtain ⟨-, hr, -, hg, -, hb, -⟩ := hlt
  rw [toChars, component_eq hred hr, component_eq hgreen hg, component_eq hblue hb,
    Hexadecimal.map_toLower_of_isDigit hdigits]
  rfl

theorem spells_toChars (c : Color) :
    Spells (component c.red ++ component c.green ++ component c.blue) c := by
  have hdigit (n : Nat) (hn : n < 16) : IsDigit (Hexadecimal.digit n) n :=
    Hexadecimal.digit?_eq_some_iff.mp (Hexadecimal.digit?_digit n hn)
  have hred := c.red.toNat_lt
  have hgreen := c.green.toNat_lt
  have hblue := c.blue.toNat_lt
  refine ⟨_, _, _, _, _, _, .cons (hdigit _ ?_) (.cons (hdigit _ ?_) (.cons (hdigit _ ?_)
    (.cons (hdigit _ ?_) (.cons (hdigit _ ?_) (.cons (hdigit _ ?_) .nil))))), ?_, ?_, ?_⟩
  all_goals omega

/-- A plus sign is no digit. -/
theorem Spells.head?_ne (h : Spells ds c) : ds.head? ≠ some '+' := by
  obtain ⟨r, r', g, g', b, b', hdigits, -⟩ := h
  cases hdigits with
  | cons hd _ =>
    intro heq
    cases heq
    have hnone : Hexadecimal.digit? '+' = none := by decide
    rw [← Hexadecimal.digit?_eq_some_iff, hnone] at hd
    cases hd

/-! ## Reading -/

/-- Where there is no sign, six digits are read. -/
theorem read?_iff_spells (h : ds.head? ≠ some '+') : read? ('#' :: ds) = some c ↔ Spells ds c := by
  have hnumber : readNumber? ds = Hexadecimal.read? 0 ds := by
    rw [readNumber?.eq_def]
    split
    · exact absurd rfl h
    · rfl
  rw [read?, hnumber]
  constructor
  · intro hread
    split at hread
    · next hlength =>
      obtain ⟨n, hn, hc⟩ := Option.map_eq_some_iff.mp hread
      obtain ⟨values, hvalues, rfl⟩ := Hexadecimal.read?_eq_some_iff.mp hn
      have hlt := Hexadecimal.forall_lt_of_isDigit hvalues
      -- what counts is bytes, but digits have one each
      have hsix : values.length = 6 :=
        (Hexadecimal.byteLength_of_isDigit hvalues).symm.trans hlength
      match values, hsix with
      | [r, r', g, g', b, b'], _ => exact ⟨_, _, _, _, _, _, hvalues, (ofNat_ofValues hlt).mp hc⟩
    · cases hread
  · rintro ⟨r, r', g, g', b, b', hvalues, hc⟩
    have hlength : byteLength ds = 6 := Hexadecimal.byteLength_of_isDigit hvalues
    rw [if_pos hlength, Hexadecimal.read?_eq_some_iff.mpr ⟨_, hvalues, rfl⟩, Option.map_some,
      (ofNat_ofValues (Hexadecimal.forall_lt_of_isDigit hvalues)).mpr hc]

/-- A plus sign is taken for a zero. -/
theorem read?_plus (ds : List Char) : read? ('#' :: '+' :: ds) = read? ('#' :: '0' :: ds) := rfl

theorem read?_of_writes (h : Writes text c) : read? text = some c := by
  obtain ⟨ds, rfl, hds⟩ := h
  exact (read?_iff_spells hds.head?_ne).mpr hds

/-- A color is read back from its written form. -/
theorem read?_toChars (c : Color) : read? c.toChars = some c :=
  read?_of_writes ⟨_, rfl, spells_toChars c⟩

theorem writes_or_plus_of_read? (h : read? text = some c) :
    Writes text c ∨ ∃ ds, text = '#' :: '+' :: ds ∧ Writes ('#' :: '0' :: ds) c := by
  rw [read?.eq_def] at h
  split at h
  · next ds =>
    by_cases hplus : ds.head? = some '+'
    · obtain ⟨ds, rfl⟩ := List.head?_eq_some_iff.mp hplus
      have hread : read? ('#' :: '0' :: ds) = some c := h
      exact Or.inr ⟨ds, rfl, _, rfl, (read?_iff_spells (by simp)).mp hread⟩
    · exact Or.inl ⟨ds, rfl, (read?_iff_spells hplus).mp h⟩
  · cases h

/-- **What is read as a color** is its written form in either case, or that form with a plus sign in
place of a leading zero. In lower case, a written form is the one that the color is shown in, and
this one is read as the color. -/
theorem read?_iff_writes_or_plus (text : List Char) :
    (∀ c, read? text = some c ↔
        Writes text c ∨ ∃ ds, text = '#' :: '+' :: ds ∧ Writes ('#' :: '0' :: ds) c) ∧
      (∀ c, Writes text c → c.toChars = text.map Char.toLower) ∧
      ∀ c : Color, read? c.toChars = some c := by
  refine ⟨fun c => ⟨writes_or_plus_of_read?, ?_⟩, ?_, read?_toChars⟩
  · rintro (hwrites | ⟨ds, rfl, hwrites⟩)
    · exact read?_of_writes hwrites
    · exact (read?_plus ds).trans (read?_of_writes hwrites)
  · rintro c ⟨ds, rfl, hds⟩
    exact hds.toChars_eq

/-- Digits in both cases. -/
theorem read?_iff_writes_or_plus_mixed_case :
    let text := ['#', 'A', 'b', '0', '1', 'f', 'F']
    let c : Color := ⟨0xab, 0x01, 0xff⟩
    Writes text c ∧ read? text = some c ∧ c.toChars = text.map Char.toLower := by
  intro text c
  have htext := read?_iff_writes_or_plus text
  have hwrites : Writes text c :=
    ⟨_, rfl, (read?_iff_spells (by decide)).mp (by decide +kernel)⟩
  exact ⟨hwrites, (htext.1 c).mpr (Or.inl hwrites), htext.2.1 c hwrites⟩

/-- A sign and five digits are read, though they are not the written form of any color. -/
theorem read?_sign_not_writes :
    read? ['#', '+', '1', '2', '3', '4', '5'] = some ⟨0x01, 0x23, 0x45⟩ ∧
      ¬ ∃ c, Writes ['#', '+', '1', '2', '3', '4', '5'] c := by
  refine ⟨by decide +kernel, ?_⟩
  rintro ⟨c, ds, hds, hspells⟩
  cases hds
  exact hspells.head?_ne rfl

end SourceEditor.Color

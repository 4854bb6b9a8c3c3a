import SourceEditor.Proofs.Token.Longest
import SourceEditor.Proofs.Token.Modes

/-!
# The grammar of numbers

`Number.Grammar` gives the number literals as regular expressions: `based` for hexadecimal and
binary numbers, and `decimal` for the others, where `floating` are those with a fraction, an
exponent or a float mark. A number token is the longest match of this grammar at the place where it
is read (`number_longest`).

The reader goes from part to part. Each part that may be missing is read if it is there and no more
of it than matches (`Reads`); no character of the parts before it starts a match of it, so that the
parts together are as long as they can be (`longest_scan`).
-/

namespace SourceEditor

open Regular

/-! ## Ranges of characters -/

/-- The characters from one to another. -/
def between (first last : Char) : List Char :=
  (List.range' first.toNat (last.toNat + 1 - first.toNat)).map Char.ofNat

theorem mem_between {first last : Char} (hlast : last.toNat < 0xD800) {c : Char} :
    c ∈ between first last ↔ first ≤ c ∧ c ≤ last := by
  have htoNat {n : Nat} (hn : n ≤ last.toNat) : (Char.ofNat n).toNat = n := by
    have hvalid : n.isValidChar := Or.inl (Nat.lt_of_le_of_lt hn hlast)
    rw [Char.ofNat, dif_pos hvalid]
    rfl
  have hle (a b : Char) : a ≤ b ↔ a.toNat ≤ b.toNat := by
    rw [Char.le_def, UInt32.le_iff_toNat_le]
    rfl
  rw [between, List.mem_map, hle, hle]
  constructor
  · rintro ⟨n, hn, rfl⟩
    rw [List.mem_range'_1] at hn
    rw [htoNat (by omega)]
    omega
  · rintro ⟨hfirst, hlast⟩
    exact ⟨c.toNat, List.mem_range'_1.mpr (by omega), Char.ofNat_toNat c⟩

namespace Number

/-! ## The grammar -/

namespace Grammar

def digit : List Char := between '0' '9'

def hexDigit : List Char := digit ++ between 'a' 'f' ++ between 'A' 'F'

/-- A digit, and digits and underscores after it. -/
def digits : RegularExpression Char := oneOf digit * .star (oneOf (digit ++ ['_']))

/-- The unsigned and the long suffix. -/
def suffix : RegularExpression Char := optional (oneOf ['u', 'U']) * optional (oneOf ['l', 'L'])

/-- A number whose base is marked. -/
def based (marks digits : List Char) : RegularExpression Char :=
  oneOf ['0'] * (oneOf marks * .star (oneOf digits)) * suffix

def hexadecimal : RegularExpression Char := based ['x', 'X'] (hexDigit ++ ['_'])

def binary : RegularExpression Char := based ['b', 'B'] ['0', '1', '_']

def fraction : RegularExpression Char := oneOf ['.'] * digits

/-- Digits after a sign or without one. -/
def signed : RegularExpression Char := optional (oneOf ['+', '-']) * digits

def exponent : RegularExpression Char := oneOf ['e', 'E'] * signed

def floatMark : RegularExpression Char := oneOf ['f', 'F', 'd', 'D']

def mantissa : RegularExpression Char := digits * optional fraction + fraction

def decimal : RegularExpression Char :=
  mantissa * optional exponent * optional floatMark * suffix

/-- A decimal number with a point, with an exponent or with a float mark. -/
def floating : RegularExpression Char :=
  (digits * fraction + fraction) * optional exponent * optional floatMark * suffix +
    mantissa * exponent * optional floatMark * suffix +
    mantissa * optional exponent * floatMark * suffix

def literal : RegularExpression Char := hexadecimal + binary + decimal

end Grammar

/-! ## Digits -/

theorem isDigit_iff (c : Char) : c.isDigit = true ↔ c ∈ Grammar.digit := by
  rw [Grammar.digit, mem_between (by decide), Char.isDigit, Bool.and_eq_true, decide_eq_true_eq,
    decide_eq_true_eq]
  rfl

theorem isDecimal_iff (c : Char) : isDecimal c = true ↔ c ∈ Grammar.digit ++ ['_'] := by
  simp [isDecimal, isDigit_iff]

theorem isHexadecimal_iff (c : Char) : isHexadecimal c = true ↔ c ∈ Grammar.hexDigit ++ ['_'] := by
  simp [isHexadecimal, isDigit_iff, Grammar.hexDigit, mem_between, or_assoc]

theorem isBinary_iff (c : Char) : isBinary c = true ↔ c ∈ ['0', '1', '_'] := by
  simp [isBinary, or_assoc]

/-- A test for one of two characters. -/
theorem beq_or_beq_iff (a b c : Char) : (c == a || c == b) = true ↔ c ∈ [a, b] := by
  simp

variable {first c d : Char} {cs text : List Char}

theorem longest_digits (h : d.isDigit = true) (cs : List Char) :
    Longest Grammar.digits (d :: cs) (countWhile isDecimal cs + 1) :=
  .oneOf_mul ((isDigit_iff d).mp h) (.star_oneOf isDecimal_iff cs)

theorem noMatch_digits (h : ¬ d.isDigit = true) (cs : List Char) :
    NoMatch Grammar.digits (d :: cs) :=
  noMatch_oneOf_mul_cons fun hd => absurd ((isDigit_iff d).mpr hd) h

/-! ## Parts that may be missing -/

theorem reads_fraction (cs : List Char) : Reads Grammar.fraction cs (fraction cs) := by
  match cs with
  | [] => exact Or.inr ⟨rfl, noMatch_oneOf_mul_nil⟩
  | [c] => exact Or.inr ⟨rfl, noMatch_oneOf_mul_cons fun _ => noMatch_oneOf_mul_nil⟩
  | point :: d :: cs =>
    rw [fraction]
    split
    · next h =>
      obtain ⟨hpoint, hd⟩ := Bool.and_eq_true_iff.mp h
      refine Or.inl ⟨by omega, ?_⟩
      rw [Nat.add_comm]
      exact .oneOf_mul (List.mem_singleton.mpr (eq_of_beq hpoint)) (longest_digits hd cs)
    · next h =>
      refine Or.inr ⟨rfl, noMatch_oneOf_mul_cons fun hpoint => noMatch_digits (fun hd => h ?_) cs⟩
      rw [List.mem_singleton.mp hpoint, hd]
      rfl

theorem longest_signed_of_sign (hc : c ∈ ['+', '-']) (hd : d.isDigit = true) (cs : List Char) :
    Longest Grammar.signed (c :: d :: cs) (countWhile isDecimal cs + 2) := by
  have hlongest := (Longest.single hc (d :: cs)).toOptional.mul (longest_digits hd cs) (by decide)
  rwa [Nat.add_comm] at hlongest

theorem longest_signed_of_digit (hd : d.isDigit = true) (cs : List Char) :
    Longest Grammar.signed (d :: cs) (countWhile isDecimal cs + 1) := by
  have hnone : NoMatch (oneOf ['+', '-']) (d :: cs) := by
    intro w hw hfront
    obtain ⟨c, hc, rfl⟩ := mem_oneOf.mp hw
    obtain rfl := (List.cons_prefix_cons.mp hfront).1
    rcases List.mem_pair.mp hc with rfl | rfl <;> cases hd
  have hlongest := (Reads.longest_optional (Or.inr ⟨rfl, hnone⟩)).mul (longest_digits hd cs)
    (by decide)
  rwa [Nat.zero_add] at hlongest

theorem noMatch_signed_nil : NoMatch Grammar.signed [] :=
  noMatch_optional_mul noMatch_oneOf_mul_nil noMatch_oneOf_mul_nil

theorem noMatch_signed (hdigit : ¬ c.isDigit = true)
    (hsign : c ∈ ['+', '-'] → NoMatch Grammar.digits cs) : NoMatch Grammar.signed (c :: cs) :=
  noMatch_optional_mul (noMatch_digits hdigit cs) (noMatch_oneOf_mul_cons hsign)

theorem not_isDigit_of_sign (h : c ∈ ['+', '-']) : ¬ c.isDigit = true := by
  rcases List.mem_pair.mp h with rfl | rfl <;> decide

theorem reads_exponent (cs : List Char) : Reads Grammar.exponent cs (exponent cs) := by
  match cs with
  | [] => exact Or.inr ⟨rfl, noMatch_oneOf_mul_nil⟩
  | mark :: cs =>
    by_cases hmark : (mark == 'e' || mark == 'E') = true
    · have hmem := (beq_or_beq_iff 'e' 'E' mark).mp hmark
      simp only [exponent.eq_def, if_pos hmark]
      match cs with
      | [] => exact Or.inr ⟨rfl, noMatch_oneOf_mul_cons fun _ => noMatch_signed_nil⟩
      | sign :: ds =>
        by_cases hsign : (sign == '+' || sign == '-') = true
        · have hmem' := (beq_or_beq_iff '+' '-' sign).mp hsign
          have hdigit := not_isDigit_of_sign hmem'
          simp only [if_pos hsign]
          match ds with
          | [] =>
            refine Or.inr ⟨rfl, noMatch_oneOf_mul_cons fun _ => noMatch_signed hdigit fun _ => ?_⟩
            exact noMatch_oneOf_mul_nil
          | d :: rest =>
            by_cases hd : d.isDigit = true
            · simp only [if_pos hd]
              refine Or.inl ⟨by omega, ?_⟩
              rw [Nat.add_comm]
              exact .oneOf_mul hmem (longest_signed_of_sign hmem' hd rest)
            · simp only [if_neg hd]
              refine Or.inr ⟨rfl, noMatch_oneOf_mul_cons fun _ => noMatch_signed hdigit fun _ => ?_⟩
              exact noMatch_digits hd rest
        · have hmem' : sign ∉ ['+', '-'] := mt (beq_or_beq_iff '+' '-' sign).mpr hsign
          simp only [if_neg hsign]
          by_cases hd : sign.isDigit = true
          · simp only [if_pos hd]
            refine Or.inl ⟨by omega, ?_⟩
            rw [Nat.add_comm]
            exact .oneOf_mul hmem (longest_signed_of_digit hd ds)
          · simp only [if_neg hd]
            refine Or.inr ⟨rfl, noMatch_oneOf_mul_cons fun _ => noMatch_signed hd fun h => ?_⟩
            exact absurd h hmem'
    · simp only [exponent.eq_def, if_neg hmark]
      refine Or.inr ⟨rfl, noMatch_oneOf_mul_cons fun h => ?_⟩
      exact absurd ((beq_or_beq_iff 'e' 'E' mark).mpr h) hmark

/-! ## The parts of a decimal number -/

/-- Whether a number starts here: with a digit, or with a point before a digit. -/
def StartsNumber (first : Char) (cs : List Char) : Prop :=
  first.isDigit = true ∨ first = '.' ∧ ∃ d ∈ cs.head?, d.isDigit = true

def wholeLength (cs : List Char) : Nat := countWhile isDecimal cs

def fractionLength (first : Char) (cs : List Char) : Nat :=
  if first == '.' then 0 else fraction (cs.drop (wholeLength cs))

def exponentLength (first : Char) (cs : List Char) : Nat :=
  exponent (cs.drop (wholeLength cs + fractionLength first cs))

def markLength (first : Char) (cs : List Char) : Nat :=
  countOne (fun c => c == 'f' || c == 'F' || c == 'd' || c == 'D')
    (cs.drop (wholeLength cs + fractionLength first cs + exponentLength first cs))

theorem reads_mark (first : Char) (cs : List Char) :
    Reads Grammar.floatMark
      (cs.drop (wholeLength cs + fractionLength first cs + exponentLength first cs))
      (markLength first cs) :=
  .single (fun c => by simp [or_assoc]) _

theorem ne_point_of_isDigit (h : first.isDigit = true) : first ≠ '.' := by
  rintro rfl
  exact absurd h (by decide)

theorem fractionLength_of_ne (h : first ≠ '.') (cs : List Char) :
    fractionLength first cs = fraction (cs.drop (wholeLength cs)) :=
  if_neg (by simpa using h)

theorem longest_fraction_of_point (hd : d.isDigit = true) (cs : List Char) :
    Longest Grammar.fraction ('.' :: d :: cs)
      (wholeLength (d :: cs) + fractionLength '.' (d :: cs) + 1) := by
  have hwhole : wholeLength (d :: cs) = countWhile isDecimal cs + 1 := by
    have hdecimal : isDecimal d = true := by rw [isDecimal, hd, Bool.true_or]
    rw [wholeLength, countWhile, List.takeWhile_cons_of_pos hdecimal]
    rfl
  rw [hwhole]
  exact .oneOf_mul (List.mem_singleton_self '.') (longest_digits hd cs)

/-- **Digits and a fraction**, or a fraction alone. -/
theorem longest_mantissa (h : StartsNumber first cs) :
    Longest Grammar.mantissa (first :: cs) (wholeLength cs + fractionLength first cs + 1) := by
  rcases h with hdigit | ⟨rfl, d, hd, hdigit⟩
  · have hne := ne_point_of_isDigit hdigit
    rw [fractionLength_of_ne hne]
    refine ((longest_digits hdigit cs).mul_cons (reads_fraction _).longest_optional
      (by decide)).add_left fun w hw hfront => ?_
    exact absurd hfront
      (noMatch_oneOf_mul_cons (fun hmem => absurd (List.mem_singleton.mp hmem) hne) w hw)
  · obtain ⟨rest, rfl⟩ := List.head?_eq_some_iff.mp hd
    refine (longest_fraction_of_point hdigit rest).add_right ?_
    exact (noMatch_digits (by decide) _).mul

/-- A number with a point. -/
theorem take_mem_pointed (h : StartsNumber first cs)
    (hpoint : first = '.' ∨ 0 < fractionLength first cs) :
    (first :: cs).take (wholeLength cs + fractionLength first cs + 1) ∈
      (Grammar.digits * Grammar.fraction + Grammar.fraction).matches' := by
  rcases h with hdigit | ⟨rfl, d, hd, hdigit⟩
  · have hne := ne_point_of_isDigit hdigit
    have hpos := hpoint.resolve_left hne
    rw [fractionLength_of_ne hne] at hpos ⊢
    exact Or.inl (take_cons_mem_mul (longest_digits hdigit cs).mem
      ((reads_fraction _).longest hpos).mem)
  · obtain ⟨rest, rfl⟩ := List.head?_eq_some_iff.mp hd
    exact Or.inr (longest_fraction_of_point hdigit rest).mem

/-! ## Bases -/

/-- Whether a number starts with a zero and one of two marks of a base. -/
def isBased (a b first : Char) (cs : List Char) : Bool :=
  first == '0' && cs.head?.any fun c => c == a || c == b

theorem isBased_iff {a b : Char} :
    isBased a b first cs = true ↔ first = '0' ∧ ∃ x rest, x ∈ [a, b] ∧ cs = x :: rest := by
  cases cs with
  | nil => simp [isBased]
  | cons c cs => simp [isBased]

theorem body_of_hexadecimal (h : isBased 'x' 'X' first cs = true) :
    body first cs = (false, 1 + countWhile isHexadecimal cs.tail) := if_pos h

theorem body_of_binary (hx : ¬ isBased 'x' 'X' first cs = true)
    (h : isBased 'b' 'B' first cs = true) :
    body first cs = (false, 1 + countWhile isBinary cs.tail) := (if_neg hx).trans (if_pos h)

theorem body_of_decimal (hx : ¬ isBased 'x' 'X' first cs = true)
    (hb : ¬ isBased 'b' 'B' first cs = true) :
    body first cs =
      (first == '.' || 0 < fractionLength first cs + exponentLength first cs + markLength first cs,
        wholeLength cs + fractionLength first cs + exponentLength first cs + markLength first cs) :=
  (if_neg hx).trans (if_neg hb)

theorem longest_base {a b : Char} {p : Char → Bool} {ds : List Char}
    (hp : ∀ c, p c = true ↔ c ∈ ds) (h : isBased a b first cs = true) :
    Longest (oneOf ['0'] * (oneOf [a, b] * .star (oneOf ds))) (first :: cs)
      (1 + countWhile p cs.tail + 1) := by
  obtain ⟨rfl, x, rest, hx, rfl⟩ := isBased_iff.mp h
  rw [Nat.add_comm 1]
  exact .oneOf_mul (List.mem_singleton_self '0') (.oneOf_mul hx (.star_oneOf hp rest))

theorem noMatch_based {a b : Char} {ds : List Char} (h : ¬ isBased a b first cs = true) :
    NoMatch (Grammar.based [a, b] ds) (first :: cs) := by
  refine NoMatch.mul (noMatch_oneOf_mul_cons fun hzero => ?_)
  cases cs with
  | nil => exact noMatch_oneOf_mul_nil
  | cons x rest =>
    refine noMatch_oneOf_mul_cons fun hx => absurd (isBased_iff.mpr ?_) h
    exact ⟨List.mem_singleton.mp hzero, x, rest, hx, rfl⟩

/-! ## Whole numbers -/

def suffixLength (text : List Char) : Nat :=
  let u := countOne (fun c => c == 'u' || c == 'U') text
  u + countOne (fun c => c == 'l' || c == 'L') (text.drop u)

theorem longest_suffix (text : List Char) : Longest Grammar.suffix text (suffixLength text) :=
  (Reads.single (beq_or_beq_iff 'u' 'U') text).longest_optional.mul
    (Reads.single (beq_or_beq_iff 'l' 'L') _).longest_optional (by decide)

theorem scan_snd (first : Char) (cs : List Char) :
    (scan first cs).2 = (body first cs).2 + suffixLength (cs.drop (body first cs).2) := by
  simp only [scan, suffixLength, List.drop_drop, Nat.add_assoc]

/-- The suffixes end a number. -/
theorem longest_mul_suffix {r : RegularExpression Char}
    (h : Longest r (first :: cs) ((body first cs).2 + 1))
    (hapart : apart r Grammar.suffix = true) :
    Longest (r * Grammar.suffix) (first :: cs) ((scan first cs).2 + 1) := by
  rw [scan_snd]
  exact h.mul_cons (longest_suffix _) hapart

theorem longest_hexadecimal (h : isBased 'x' 'X' first cs = true) :
    Longest Grammar.hexadecimal (first :: cs) ((scan first cs).2 + 1) := by
  refine longest_mul_suffix ?_ (by decide)
  rw [body_of_hexadecimal h]
  exact longest_base isHexadecimal_iff h

theorem longest_binary (hx : ¬ isBased 'x' 'X' first cs = true)
    (h : isBased 'b' 'B' first cs = true) :
    Longest Grammar.binary (first :: cs) ((scan first cs).2 + 1) := by
  refine longest_mul_suffix ?_ (by decide)
  rw [body_of_binary hx h]
  exact longest_base isBinary_iff h

section Decimal

variable (hstart : StartsNumber first cs) (hx : ¬ isBased 'x' 'X' first cs = true)
  (hb : ¬ isBased 'b' 'B' first cs = true)

include hstart hx hb

theorem longest_decimal : Longest Grammar.decimal (first :: cs) ((scan first cs).2 + 1) := by
  refine longest_mul_suffix ?_ (by decide)
  rw [body_of_decimal hx hb]
  exact ((longest_mantissa hstart).mul_cons (reads_exponent _).longest_optional
    (by decide)).mul_cons (reads_mark first cs).longest_optional (by decide)

omit hstart in
/-- The parts of a decimal number, one after the other. -/
theorem take_scan_mem {mantissa exponent mark : RegularExpression Char}
    (hmantissa : (first :: cs).take (wholeLength cs + fractionLength first cs + 1) ∈
      mantissa.matches')
    (hexponent : (cs.drop (wholeLength cs + fractionLength first cs)).take
      (exponentLength first cs) ∈ exponent.matches')
    (hmark : (cs.drop (wholeLength cs + fractionLength first cs + exponentLength first cs)).take
      (markLength first cs) ∈ mark.matches') :
    (first :: cs).take ((scan first cs).2 + 1) ∈
      (mantissa * exponent * mark * Grammar.suffix).matches' := by
  rw [scan_snd, body_of_decimal hx hb]
  exact take_cons_mem_mul (take_cons_mem_mul (take_cons_mem_mul hmantissa hexponent) hmark)
    (longest_suffix _).mem

omit hstart in
theorem body_fst_iff : (body first cs).1 = true ↔
    first = '.' ∨ 0 < fractionLength first cs + exponentLength first cs + markLength first cs := by
  rw [body_of_decimal hx hb, Bool.or_eq_true, beq_iff_eq, decide_eq_true_eq]

/-- **A decimal number is a float** if it has a point, an exponent or a float mark. -/
theorem body_fst_iff_of_decimal : (body first cs).1 = true ↔
    (first :: cs).take ((scan first cs).2 + 1) ∈ Grammar.floating.matches' := by
  have hmantissa := (longest_mantissa hstart).mem
  have hexponent := reads_exponent (cs.drop (wholeLength cs + fractionLength first cs))
  have hmark := reads_mark first cs
  rw [body_fst_iff hx hb]
  by_cases hpoint : first = '.' ∨ 0 < fractionLength first cs
  · refine iff_of_true (hpoint.imp_right fun _ => by omega) (Or.inl (Or.inl ?_))
    exact take_scan_mem hx hb (take_mem_pointed hstart hpoint) hexponent.longest_optional.mem
      hmark.longest_optional.mem
  by_cases hexp : 0 < exponentLength first cs
  · refine iff_of_true (Or.inr (by omega)) (Or.inl (Or.inr ?_))
    exact take_scan_mem hx hb hmantissa (hexponent.longest hexp).mem hmark.longest_optional.mem
  by_cases hfloat : 0 < markLength first cs
  · refine iff_of_true (Or.inr (by omega)) (Or.inr ?_)
    exact take_scan_mem hx hb hmantissa hexponent.longest_optional.mem (hmark.longest hfloat).mem
  -- without these parts there are only digits and suffixes
  obtain ⟨hne, hfraction⟩ := not_or.mp hpoint
  have hdigit := hstart.resolve_right fun h => hne h.1
  rw [Nat.pos_iff_ne_zero, not_not] at hfraction hexp hfloat
  refine iff_of_false (fun h => ?_) fun hmem => ?_
  · rcases h with h | h
    · exact hne h
    · omega
  · have hplain : (first :: cs).take ((scan first cs).2 + 1) ∈
        (Grammar.digits * 1 * 1 * Grammar.suffix).matches' := by
      apply take_scan_mem hx hb
      · rw [hfraction]
        exact (longest_digits hdigit cs).mem
      · rw [hexp]
        rfl
      · rw [hfloat]
        rfl
    exact false_of_needs_of_lacks ['.', 'e', 'E', 'f', 'F', 'd', 'D'] (by decide) (by decide) hmem
      hplain

end Decimal

/-- Behind the mark of a base, no decimal number matches more than the zero. -/
theorem length_le_of_decimal {a b : Char} {w : List Char} (h : isBased a b first cs = true)
    (hletters : lacks [a, b] Grammar.decimal = true) (hw : w ∈ Grammar.decimal.matches')
    (hfront : w <+: first :: cs) : w.length ≤ 1 := by
  obtain ⟨-, x, rest, hx, rfl⟩ := isBased_iff.mp h
  match w with
  | [] => exact Nat.zero_le 1
  | [c] => exact Nat.le_refl 1
  | c :: d :: w =>
    obtain rfl := (List.cons_prefix_cons.mp (List.cons_prefix_cons.mp hfront).2).1
    exact absurd hx (notMem_of_lacks hletters (mem_letters hw d (by simp)))

theorem not_binary_of_hexadecimal (h : isBased 'x' 'X' first cs = true) :
    ¬ isBased 'b' 'B' first cs = true := by
  obtain ⟨rfl, x, rest, hx, rfl⟩ := isBased_iff.mp h
  rcases List.mem_pair.mp hx with rfl | rfl <;> simp [isBased]

/-- **The longest match of the grammar** is what the reader takes. -/
theorem longest_scan (hstart : StartsNumber first cs) :
    Longest Grammar.literal (first :: cs) ((scan first cs).2 + 1) := by
  by_cases hx : isBased 'x' 'X' first cs = true
  · have hb := not_binary_of_hexadecimal hx
    refine ((longest_hexadecimal hx).add_left fun w hw hfront => ?_).add_left
      fun w hw hfront => ?_
    · exact absurd hfront (noMatch_based hb w hw)
    · exact (length_le_of_decimal hx (by decide) hw hfront).trans (Nat.le_add_left 1 _)
  by_cases hb : isBased 'b' 'B' first cs = true
  · refine ((longest_binary hx hb).add_right (noMatch_based hx)).add_left fun w hw hfront => ?_
    exact (length_le_of_decimal hb (by decide) hw hfront).trans (Nat.le_add_left 1 _)
  · exact (longest_decimal hstart hx hb).add_right ((noMatch_based hx).add (noMatch_based hb))

/-- A number is a float if it is one by the grammar. -/
theorem body_fst_iff_mem_floating (hstart : StartsNumber first cs) : (body first cs).1 = true ↔
    (first :: cs).take ((scan first cs).2 + 1) ∈ Grammar.floating.matches' := by
  by_cases hx : isBased 'x' 'X' first cs = true
  · refine iff_of_false (by simp [body_of_hexadecimal hx]) ?_
    exact false_of_needs_of_lacks ['x', 'X'] (by decide) (by decide +kernel)
      (longest_hexadecimal hx).mem
  by_cases hb : isBased 'b' 'B' first cs = true
  · refine iff_of_false (by simp [body_of_binary hx hb]) ?_
    exact false_of_needs_of_lacks ['b', 'B'] (by decide) (by decide +kernel)
      (longest_binary hx hb).mem
  · exact body_fst_iff_of_decimal hstart hx hb

end Number

/-! ## The lexer at a number -/

theorem plainToken?_number {rules : Rules} {atStart : Bool} {modes : List Mode} {c : Char}
    {cs : List Char} (h : Number.StartsNumber c cs) :
    plainToken? rules atStart modes c cs =
      some ⟨(Number.scan c cs).1, 1 + (Number.scan c cs).2, modes,
        Nat.add_pos_left Nat.one_pos _⟩ := by
  have hnumber : (c.isDigit || (c == '.' && cs.head?.any Char.isDigit)) = true := by
    rcases h with h | ⟨rfl, d, hd, h⟩
    · rw [h, Bool.true_or]
    · simp [Option.mem_def.mp hd, h]
  have hother : (!(Unicode.isWhiteSpace c) && c != '#' && c != '/' && c != '"' && c != '\'' &&
      c != '`') = true := by
    have hall : ('.' :: Number.Grammar.digit).all (fun c => !(Unicode.isWhiteSpace c) && c != '#' &&
      c != '/' && c != '"' && c != '\'' && c != '`') = true := by decide
    refine List.all_eq_true.mp hall c ?_
    rcases h with h | ⟨rfl, -⟩
    · exact List.mem_cons_of_mem _ ((Number.isDigit_iff c).mp h)
    · exact List.mem_cons_self
  simp only [Bool.and_eq_true, Bool.not_eq_true', bne_iff_ne, ne_eq] at hother
  obtain ⟨⟨⟨⟨⟨hspace, hhash⟩, hslash⟩, hquote⟩, hchar⟩, htick⟩ := hother
  simp [plainToken?, hspace, hhash, hslash, hquote, hchar, htick, hnumber]

theorem cut_number {rules : Rules} {lexer : Lexer} (code : InCode lexer.modes) {c : Char}
    {cs : List Char} (h : Number.StartsNumber c cs) :
    lexer.cut rules c cs = .ok ⟨(Number.scan c cs).1, 1 + (Number.scan c cs).2, lexer.modes,
      Nat.add_pos_left Nat.one_pos _⟩ := by
  unfold Lexer.cut
  split
  · next raw outer hstring => exact absurd hstring (code raw outer)
  · rw [codeToken, plainToken?_number h]

/-- A token is the longest number literal that starts a text, and is of the kind that its form
says. -/
structure IsLongestNumber (text : List Char) (token : Token) : Prop where
  isPrefix : token.text <+: text
  mem_literal : token.text ∈ Number.Grammar.literal.matches'
  length_le : ∀ w ∈ Number.Grammar.literal.matches', w <+: text → w.length ≤ token.text.length
  float_iff : token.kind = .floatLiteral ↔ token.text ∈ Number.Grammar.floating.matches'
  integer_iff : token.kind = .integerLiteral ↔ token.text ∉ Number.Grammar.floating.matches'

/-- The token that the reader of numbers makes. -/
theorem Number.isLongestNumber_scan {c : Char} {cs : List Char} (h : StartsNumber c cs)
    (offset : Nat) :
    IsLongestNumber (c :: cs) ⟨(scan c cs).1, offset, (c :: cs).take (1 + (scan c cs).2)⟩ := by
  have hlongest := longest_scan h
  have hfloat := body_fst_iff_mem_floating h
  have hkind : (scan c cs).1 = if (body c cs).1 then .floatLiteral else .integerLiteral := rfl
  rw [Nat.add_comm]
  refine ⟨List.take_prefix _ _, hlongest.mem, fun w hw hfront => ?_, ?_, ?_⟩
  · rw [List.length_take_of_le hlongest.le_length]
    exact hlongest.length_le w hw hfront
  · rw [← hfloat, hkind]
    split <;> simp_all
  · rw [← hfloat, hkind]
    split <;> simp_all

/-- **Number tokens are longest matches.** Outside of string text, where a number starts, the lexer
reads the longest prefix of the text that is a number literal. -/
theorem number_longest (rules : Rules) (lexer : Lexer) (code : InCode lexer.modes) (c : Char)
    (cs : List Char) (hrest : lexer.rest = c :: cs) (hstart : Number.StartsNumber c cs) :
    ∃ token after, lexer.next rules = .ok (some (token, after)) ∧
      IsLongestNumber lexer.rest token := by
  rw [Lexer.next, hrest]
  simp only [cut_number code hstart]
  exact ⟨_, _, rfl, Number.isLongestNumber_scan hstart lexer.offset⟩

/-- In a template expression, an exponent is none after `0x`: the literal is `0x1e`. -/
theorem number_longest_hexadecimal :
    ∃ token after,
      Lexer.next .kotlin ⟨2, ['0', 'x', '1', 'e', '+', '2'], [.template 0, .string false]⟩ =
        .ok (some (token, after)) ∧
      IsLongestNumber ['0', 'x', '1', 'e', '+', '2'] token :=
  number_longest .kotlin ⟨2, ['0', 'x', '1', 'e', '+', '2'], [.template 0, .string false]⟩
    (by simp [InCode]) '0' ['x', '1', 'e', '+', '2'] rfl (Or.inl (by decide))

end SourceEditor

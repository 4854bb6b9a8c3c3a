import SourceEditor.Proofs.Text.Hexadecimal
import SourceEditor.Toml.Quoted
import Mathlib.Data.List.Basic

/-!
# Quoted text is read back

`Toml.write` has four forms to choose from. Each of them is read back as the text that was written,
whatever follows it, as long as that is not one more quote (`quoted?_write`).

On one line the argument is character by character: what is not written as it is, is written as an
escape, and an escape is read as the character it is of (`exists_escaped`). Between three quotes up
to two quotes in a row stand as they are, also at the very end, in front of the closing ones. There
the induction carries the quotes that the reader has not taken yet (`multilineBasic?_body`,
`multilineLiteral?_body`).
-/

namespace SourceEditor

namespace Toml

/-! ## Escapes -/

theorem isPrintable_of_not_needsEscape {c : Char} (h : needsEscape c = false) (hc : c ≠ '\n') :
    isPrintable c = true := by
  simpa [needsEscape, hc] using h

theorem not_return_of_not_needsEscape {c : Char} (h : needsEscape c = false) : c ≠ '\r' := by
  rintro rfl
  exact absurd h (by decide)

/-- Characters that cannot be written as they are have small numbers. -/
theorem toNat_lt_of_needsEscape {c : Char} (h : needsEscape c = true) : c.toNat < 128 := by
  simp only [needsEscape, isPrintable, Bool.not_eq_true', Bool.or_eq_false_iff,
    Bool.and_eq_false_iff, decide_eq_false_iff_not, bne_eq_false_iff_eq] at h
  obtain ⟨-, -, hspace | rfl⟩ := h
  · have hlt : c.toNat < ' '.toNat := Char.lt_def.mp (Char.not_le.mp hspace)
    exact Nat.lt_trans hlt (by decide)
  · decide

/-- What is escaped on one line. -/
theorem toNat_lt_of_basic {c : Char}
    (h : (c == '\t' || c == '"' || c == '\\' || c == '\n' || needsEscape c) = true) :
    c.toNat < 128 := by
  simp only [Bool.or_eq_true, beq_iff_eq] at h
  obtain (((rfl | rfl) | rfl) | rfl) | hneeds := h
  · decide
  · decide
  · decide
  · decide
  · exact toNat_lt_of_needsEscape hneeds

/-- What is escaped over several lines, quotes apart. -/
theorem toNat_lt_of_multiline {c : Char}
    (h : (c == '\t' || c == '\\' || needsEscape c) = true) : c.toNat < 128 := by
  apply toNat_lt_of_basic
  simp only [Bool.or_eq_true] at h ⊢
  tauto

/-- The escape of a character is read as the character, and its first letter is no blank. -/
theorem exists_escaped {c : Char} (h : c.toNat < 128) :
    ∃ mark tail, escaped c = '\\' :: mark :: tail ∧
      mark ∉ [' ', '\t', '\n', '\r'] ∧ ∀ rest, escape? (mark :: tail ++ rest) = some (c, rest) := by
  unfold escaped
  split
  case h_8 =>
    refine ⟨'u', _, rfl, by decide, fun rest => ?_⟩
    have hread : Hexadecimal.read? 0 ['0', '0', Hexadecimal.upperDigit (c.toNat / 16),
        Hexadecimal.upperDigit (c.toNat % 16)] = some c.toNat := by
      simp only [Hexadecimal.read?, Hexadecimal.digit?_upperDigit (c.toNat / 16) (by omega),
        Hexadecimal.digit?_upperDigit (c.toNat % 16) (by omega), Option.bind_some,
        show Hexadecimal.digit? '0' = some 0 by decide]
      congr 1
      omega
    simp only [List.cons_append, List.nil_append, escape?, scalar, hread]
    rw [if_pos (show c.toNat.isValidChar from c.valid), Char.ofNat_toNat]
    rfl
  all_goals exact ⟨_, _, rfl, by decide, fun rest => rfl⟩

theorem skipSpaces_cons {c : Char} (h : c ≠ ' ' ∧ c ≠ '\t') (cs : List Char) :
    skipSpaces (c :: cs) = c :: cs := by
  rw [skipSpaces, List.dropWhile_cons_of_neg (by simp [h])]

theorem continuation?_eq_none {mark : Char} (h : mark ∉ [' ', '\t', '\n', '\r']) (cs : List Char) :
    continuation? (mark :: cs) = none := by
  simp only [List.mem_cons, List.not_mem_nil, or_false, not_or] at h
  obtain ⟨hspace, htab, hnewline, hreturn⟩ := h
  rw [continuation?, skipSpaces_cons ⟨hspace, htab⟩, newline?.eq_def]
  split <;> simp_all

/-! ## On one line -/

theorem basic?_quote (rest : List Char) : basic? ('"' :: rest) = some ([], rest) := by
  rw [basic?.eq_def]
  rfl

theorem basic?_escaped {c : Char} (h : c.toNat < 128) (rest : List Char) :
    basic? (escaped c ++ rest) = (basic? rest).map (push c) := by
  obtain ⟨mark, tail, heq, -, hescape⟩ := exists_escaped h
  have hread := hescape rest
  rw [heq, List.cons_append, basic?.eq_def]
  simp only
  split
  · next hread' =>
    cases hread.symm.trans hread'
    rfl
  · next hread' => cases hread.symm.trans hread'

theorem basic?_of_isPrintable {c : Char} (h : isPrintable c = true) (hquote : c ≠ '"')
    (hbackslash : c ≠ '\\') (rest : List Char) :
    basic? (c :: rest) = (basic? rest).map (push c) := by
  rw [basic?.eq_def]
  split <;> simp_all

theorem basic?_basicBody (text rest : List Char) :
    basic? (basicBody text ++ '"' :: rest) = some (text, rest) := by
  induction text with
  | nil => exact basic?_quote rest
  | cons c cs ih =>
    rw [basicBody, List.flatMap_cons, ← basicBody, List.append_assoc]
    split
    · next hescape =>
      rw [basic?_escaped (toNat_lt_of_basic hescape), ih]
      rfl
    · next hplain =>
      simp only [Bool.or_eq_true, beq_iff_eq, not_or, Bool.not_eq_true] at hplain
      obtain ⟨⟨⟨⟨-, hquote⟩, hbackslash⟩, hnewline⟩, hneeds⟩ := hplain
      rw [List.singleton_append, basic?_of_isPrintable
        (isPrintable_of_not_needsEscape hneeds hnewline) hquote hbackslash, ih]
      rfl

theorem literal?_append {text : List Char} (h : ∀ c ∈ text, c ≠ '\'' ∧ isPrintable c = true)
    (rest : List Char) : literal? (text ++ '\'' :: rest) = some (text, rest) := by
  induction text with
  | nil => rfl
  | cons c cs ih =>
    obtain ⟨⟨hquote, hprintable⟩, htail⟩ := List.forall_mem_cons.mp h
    rw [List.cons_append, literal?, if_neg hquote, if_pos hprintable, ih htail]
    rfl

/-! ## Over several lines -/

/-- Puts text in front of text that has been read. -/
def pushAll (front : List Char) : List Char × List Char → List Char × List Char
  | (text, rest) => (front ++ text, rest)

/-- A reader of text between three quotes: three of them end the text, fewer belong to it. -/
structure EndsAtThree (quote : Char) (read : List Char → Option (List Char × List Char)) :
    Prop where
  closes : ∀ cs, read (quote :: quote :: quote :: cs) = closing? quote cs
  takes : ∀ cs, cs.take 2 ≠ [quote, quote] → read (quote :: cs) = (read cs).map (push quote)

theorem closing?_replicate {quote : Char} {n : Nat} (hn : n ≤ 2) {rest : List Char}
    (h : rest.head? ≠ some quote) :
    closing? quote (List.replicate n quote ++ rest) = some (List.replicate n quote, rest) := by
  have hall : ∀ c ∈ List.replicate n quote, (c == quote) = true := by simp
  have htake : rest.takeWhile (· == quote) = [] := by
    cases rest with
    | nil => rfl
    | cons c cs => exact List.takeWhile_cons_of_neg (by simpa using h)
  have hdrop : rest.dropWhile (· == quote) = rest := by
    cases rest with
    | nil => rfl
    | cons c cs => exact List.dropWhile_cons_of_neg (by simpa using h)
  rw [closing?, List.takeWhile_append_of_pos hall, List.dropWhile_append_of_pos hall, htake, hdrop,
    List.append_nil, List.length_replicate, if_pos hn]

namespace EndsAtThree

variable {quote : Char} {read : List Char → Option (List Char × List Char)} {n : Nat}

/-- Up to two quotes in front of the closing ones belong to the text. -/
theorem read_closing (h : EndsAtThree quote read) (hn : n ≤ 2) {rest : List Char}
    (hrest : rest.head? ≠ some quote) :
    read (List.replicate n quote ++ ([quote, quote, quote] ++ rest)) =
      some (List.replicate n quote, rest) := by
  have hquotes : List.replicate n quote ++ ([quote, quote, quote] ++ rest) =
      quote :: quote :: quote :: (List.replicate n quote ++ rest) := by
    match n, hn with
    | 0, _ | 1, _ | 2, _ => rfl
  rw [hquotes, h.closes, closing?_replicate hn hrest]

/-- Up to two quotes in front of something else are read as they are. -/
theorem read_replicate (h : EndsAtThree quote read) (hn : n ≤ 2) {c : Char} (hc : c ≠ quote)
    (tail : List Char) :
    read (List.replicate n quote ++ c :: tail) =
      (read (c :: tail)).map (pushAll (List.replicate n quote)) := by
  induction n with
  | zero => exact Option.map_id'.symm
  | succ n ih =>
    have htake : (List.replicate n quote ++ c :: tail).take 2 ≠ [quote, quote] := by
      match n, hn with
      | 0, _ | 1, _ => simp [hc]
    rw [List.replicate_succ, List.cons_append, h.takes _ htake, ih (by omega), Option.map_map]
    rfl

end EndsAtThree

theorem isPlain_of_not_needsEscape {c : Char} (h : needsEscape c = false) :
    (c == '\n' || isPrintable c) = true := by
  simpa only [needsEscape, Bool.not_eq_false'] using h

/-! ### Double quotes -/

theorem endsAtThree_multilineBasic? : EndsAtThree '"' multilineBasic? where
  closes cs := by
    rw [multilineBasic?.eq_def]
    rfl
  takes cs h := by
    rw [multilineBasic?.eq_def]
    split
    case h_5 heq =>
      cases heq
      exact if_pos (by decide)
    all_goals simp_all

theorem multilineBasic?_escaped {c : Char} (h : c.toNat < 128) (rest : List Char) :
    multilineBasic? (escaped c ++ rest) = (multilineBasic? rest).map (push c) := by
  obtain ⟨mark, tail, heq, hmark, hescape⟩ := exists_escaped h
  have hread := hescape rest
  have hcontinues := continuation?_eq_none hmark (tail ++ rest)
  rw [← List.cons_append] at hcontinues
  rw [heq, List.cons_append, multilineBasic?.eq_def]
  simp only
  split
  · next hcontinues' => cases hcontinues.symm.trans hcontinues'
  · split
    · next hread' =>
      cases hread.symm.trans hread'
      rfl
    · next hread' => cases hread.symm.trans hread'

theorem multilineBasic?_of_not_needsEscape {c : Char} (h : needsEscape c = false)
    (hquote : c ≠ '"') (hbackslash : c ≠ '\\') (rest : List Char) :
    multilineBasic? (c :: rest) = (multilineBasic? rest).map (push c) := by
  have hreturn := not_return_of_not_needsEscape h
  rw [multilineBasic?.eq_def]
  split
  case h_5 heq =>
    cases heq
    exact if_pos (isPlain_of_not_needsEscape h)
  all_goals simp_all

theorem multilineBasic?_replicate_escaped {n : Nat} (hn : n ≤ 2) {c : Char} (h : c.toNat < 128)
    (rest : List Char) :
    multilineBasic? (List.replicate n '"' ++ (escaped c ++ rest)) =
      ((multilineBasic? rest).map (push c)).map (pushAll (List.replicate n '"')) := by
  obtain ⟨mark, tail, heq, -⟩ := exists_escaped h
  rw [← multilineBasic?_escaped h, heq]
  exact endsAtThree_multilineBasic?.read_replicate hn (by decide) _

/-- The body of a text between three double quotes, where `n` quotes in front of it have not been
read yet. -/
theorem multilineBasic?_body (text : List Char) {rest : List Char} (hrest : rest.head? ≠ some '"')
    {n : Nat} (hn : n ≤ 2) :
    multilineBasic?
        (List.replicate n '"' ++ (multilineBasicBody n text ++ (['"', '"', '"'] ++ rest))) =
      some (List.replicate n '"' ++ text, rest) := by
  induction text generalizing n with
  | nil =>
    rw [List.append_nil]
    exact endsAtThree_multilineBasic?.read_closing hn hrest
  | cons c cs ih =>
    have hzero := ih (Nat.zero_le 2)
    rw [List.replicate_zero, List.nil_append, List.nil_append] at hzero
    rw [multilineBasicBody]
    split
    · next hquote =>
      obtain rfl := beq_iff_eq.mp hquote
      split
      · -- the third quote in a row is escaped
        rw [List.append_assoc, multilineBasic?_replicate_escaped hn (by decide), hzero]
        rfl
      · -- the quote joins those that have not been read
        have hsucc := ih (n := n + 1) (by omega)
        rw [List.replicate_succ', List.append_assoc, List.append_assoc] at hsucc
        exact hsucc
    · next hquote =>
      split
      · next hescape =>
        rw [List.append_assoc,
          multilineBasic?_replicate_escaped hn (toNat_lt_of_multiline hescape), hzero]
        rfl
      · next hplain =>
        simp only [Bool.or_eq_true, beq_iff_eq, not_or, Bool.not_eq_true] at hplain
        have hne : c ≠ '"' := by simpa using hquote
        rw [List.cons_append, endsAtThree_multilineBasic?.read_replicate hn hne,
          multilineBasic?_of_not_needsEscape hplain.2 hne hplain.1.2, hzero]
        rfl

/-! ### Single quotes -/

theorem le_longestRun (c : Char) (n : Nat) (text : List Char) : n ≤ longestRun c n text := by
  induction text generalizing n with
  | nil => exact Nat.le_refl n
  | cons d ds ih =>
    rw [longestRun]
    split
    · exact Nat.le_of_succ_le (ih (n + 1))
    · exact Nat.le_max_left _ _

theorem not_mem_of_longestRun_eq_zero {c : Char} {text : List Char}
    (h : longestRun c 0 text = 0) : c ∉ text := by
  induction text with
  | nil => exact List.not_mem_nil
  | cons d ds ih =>
    rw [longestRun] at h
    split at h
    · have := le_longestRun c (0 + 1) ds
      omega
    · next hne =>
      rw [List.mem_cons, not_or]
      exact ⟨Ne.symm hne, ih (by omega)⟩

theorem endsAtThree_multilineLiteral? : EndsAtThree '\'' multilineLiteral? where
  closes cs := by
    rw [multilineLiteral?.eq_def]
    rfl
  takes cs h := by
    rw [multilineLiteral?.eq_def]
    split
    case h_4 heq =>
      cases heq
      exact if_pos (by decide)
    all_goals simp_all

theorem multilineLiteral?_of_not_needsEscape {c : Char} (h : needsEscape c = false)
    (hquote : c ≠ '\'') (rest : List Char) :
    multilineLiteral? (c :: rest) = (multilineLiteral? rest).map (push c) := by
  have hreturn := not_return_of_not_needsEscape h
  rw [multilineLiteral?.eq_def]
  split
  case h_4 heq =>
    cases heq
    exact if_pos (isPlain_of_not_needsEscape h)
  all_goals simp_all

/-- A text between three single quotes, where `n` quotes in front of it have not been read yet. -/
theorem multilineLiteral?_body {text : List Char} (htext : ∀ c ∈ text, needsEscape c = false)
    {rest : List Char} (hrest : rest.head? ≠ some '\'') {n : Nat}
    (hrun : longestRun '\'' n text ≤ 2) :
    multilineLiteral? (List.replicate n '\'' ++ (text ++ (['\'', '\'', '\''] ++ rest))) =
      some (List.replicate n '\'' ++ text, rest) := by
  have hn := Nat.le_trans (le_longestRun _ n text) hrun
  induction text generalizing n with
  | nil =>
    rw [List.append_nil]
    exact endsAtThree_multilineLiteral?.read_closing hn hrest
  | cons c cs ih =>
    obtain ⟨hplain, htail⟩ := List.forall_mem_cons.mp htext
    rw [longestRun] at hrun
    split at hrun
    · next hquote =>
      subst hquote
      have hsucc := ih htail hrun (Nat.le_trans (le_longestRun _ _ _) hrun)
      rw [List.replicate_succ', List.append_assoc, List.append_assoc] at hsucc
      exact hsucc
    · next hne =>
      have hzero := ih htail (Nat.le_trans (Nat.le_max_right _ _) hrun) (Nat.zero_le 2)
      rw [List.replicate_zero, List.nil_append, List.nil_append] at hzero
      rw [List.cons_append, endsAtThree_multilineLiteral?.read_replicate hn hne,
        multilineLiteral?_of_not_needsEscape hplain hne, hzero]
      rfl

/-! ## All forms -/

theorem newline?_eq_none {c : Char} (hnewline : c ≠ '\n') (hreturn : c ≠ '\r') (cs : List Char) :
    newline? (c :: cs) = none := by
  rw [newline?.eq_def]
  split <;> simp_all

/-- The line end after the opening quotes is dropped, and no other. -/
theorem dropNewline_opening {text body : List Char}
    (h : '\n' ∉ text → ∃ c cs, body = c :: cs ∧ c ≠ '\n' ∧ c ≠ '\r') :
    dropNewline (opening text ++ body) = body := by
  by_cases hmem : '\n' ∈ text
  · simp [opening, hmem, dropNewline, newline?]
  · obtain ⟨c, cs, rfl, hnewline, hreturn⟩ := h hmem
    simp [opening, hmem, dropNewline, newline?_eq_none hnewline hreturn]

theorem quoted?_double {cs : List Char} (h : cs.take 2 ≠ ['"', '"']) :
    quoted? ('"' :: cs) = basic? cs := by
  rw [quoted?.eq_def]
  split <;> simp_all

theorem quoted?_single {cs : List Char} (h : cs.take 2 ≠ ['\'', '\'']) :
    quoted? ('\'' :: cs) = literal? cs := by
  rw [quoted?.eq_def]
  split <;> simp_all

/-- A text on one line does not start with a quote. -/
theorem exists_basicBody_cons (c : Char) (cs : List Char) :
    ∃ d tail, basicBody (c :: cs) = d :: tail ∧ d ≠ '"' := by
  rw [basicBody, List.flatMap_cons]
  split
  · next hescape =>
    obtain ⟨mark, tail, heq, -⟩ := exists_escaped (toNat_lt_of_basic hescape)
    exact ⟨'\\', _, by rw [heq, List.cons_append], by decide⟩
  · next hplain => exact ⟨c, _, rfl, by simp_all⟩

/-- A text over several lines starts with a line end only if it has one. -/
theorem exists_multilineBasicBody_cons {c : Char} (h : c ≠ '\n') (cs : List Char) :
    ∃ d tail, multilineBasicBody 0 (c :: cs) = d :: tail ∧ d ≠ '\n' ∧ d ≠ '\r' := by
  rw [multilineBasicBody]
  split
  · next hquote =>
    obtain rfl := beq_iff_eq.mp hquote
    exact ⟨'"', _, rfl, by decide, by decide⟩
  · split
    · next hescape =>
      obtain ⟨mark, tail, heq, -⟩ := exists_escaped (toNat_lt_of_multiline hescape)
      exact ⟨'\\', _, by rw [heq, List.cons_append], by decide, by decide⟩
    · next hplain =>
      simp only [Bool.or_eq_true, not_or, Bool.not_eq_true] at hplain
      exact ⟨c, _, rfl, h, not_return_of_not_needsEscape hplain.2⟩

variable {text rest : List Char}

theorem quoted?_basic (text : List Char) (hrest : rest.head? ≠ some '"') :
    quoted? (enclose ['"'] (basicBody text) ++ rest) = some (text, rest) := by
  have hform : enclose ['"'] (basicBody text) ++ rest = '"' :: (basicBody text ++ '"' :: rest) := by
    simp [enclose]
  rw [hform, quoted?_double ?_, basic?_basicBody]
  cases text with
  | nil =>
    cases rest with
    | nil => decide
    | cons c cs => simpa [basicBody] using hrest
  | cons c cs =>
    obtain ⟨d, tail, heq, hd⟩ := exists_basicBody_cons c cs
    simp [heq, hd]

theorem quoted?_literal (hne : text ≠ []) (h : ∀ c ∈ text, c ≠ '\'' ∧ isPrintable c = true) :
    quoted? (enclose ['\''] text ++ rest) = some (text, rest) := by
  have hform : enclose ['\''] text ++ rest = '\'' :: (text ++ '\'' :: rest) := by simp [enclose]
  rw [hform, quoted?_single ?_, literal?_append h]
  obtain ⟨c, cs, rfl⟩ := List.exists_cons_of_ne_nil hne
  simp [(h c (by simp)).1]

theorem quoted?_multilineBasic (text : List Char) (hrest : rest.head? ≠ some '"') :
    quoted? (enclose ['"', '"', '"'] (opening text ++ multilineBasicBody 0 text) ++ rest) =
      some (text, rest) := by
  have hform : enclose ['"', '"', '"'] (opening text ++ multilineBasicBody 0 text) ++ rest =
      '"' :: '"' :: '"' ::
        (opening text ++ (multilineBasicBody 0 text ++ (['"', '"', '"'] ++ rest))) := by
    simp [enclose]
  rw [hform, quoted?, dropNewline_opening ?_]
  · exact multilineBasic?_body text hrest (Nat.zero_le 2)
  · intro hnewline
    cases text with
    | nil => exact ⟨'"', _, rfl, by decide, by decide⟩
    | cons c cs =>
      have hc : c ≠ '\n' := by
        rintro rfl
        exact hnewline (by simp)
      obtain ⟨d, tail, heq, hd⟩ := exists_multilineBasicBody_cons hc cs
      exact ⟨d, _, by rw [heq, List.cons_append], hd⟩

theorem quoted?_multilineLiteral (h : ∀ c ∈ text, needsEscape c = false)
    (hrun : longestRun '\'' 0 text ≤ 2) (hrest : rest.head? ≠ some '\'') :
    quoted? (enclose ['\'', '\'', '\''] (opening text ++ text) ++ rest) = some (text, rest) := by
  have hform : enclose ['\'', '\'', '\''] (opening text ++ text) ++ rest =
      '\'' :: '\'' :: '\'' :: (opening text ++ (text ++ (['\'', '\'', '\''] ++ rest))) := by
    simp [enclose]
  rw [hform, quoted?, dropNewline_opening ?_]
  · exact multilineLiteral?_body h hrest hrun
  · intro hnewline
    cases text with
    | nil => exact ⟨'\'', _, rfl, by decide, by decide⟩
    | cons c cs =>
      refine ⟨c, _, rfl, ?_, not_return_of_not_needsEscape (h c (by simp))⟩
      rintro rfl
      exact hnewline (by simp)

/-- **Quoted text is read back.** -/
theorem quoted?_write (text : List Char) (hdouble : rest.head? ≠ some '"')
    (hsingle : rest.head? ≠ some '\'') : quoted? (write text ++ rest) = some (text, rest) := by
  have hplain (h : (!text.any needsEscape) = true) : ∀ c ∈ text, needsEscape c = false := by
    simpa using h
  rw [write]
  simp only [Bool.and_eq_true, decide_eq_true_eq]
  split
  · exact quoted?_basic text hdouble
  · next hquotes =>
    split
    · next hliteral =>
      obtain ⟨⟨hcontrol, hnewline⟩, hsingles⟩ := hliteral
      refine quoted?_literal ?_ fun c hc => ⟨?_, ?_⟩
      · rintro rfl
        exact hquotes (by decide)
      · rintro rfl
        exact not_mem_of_longestRun_eq_zero hsingles hc
      · refine isPrintable_of_not_needsEscape (hplain hcontrol c hc) ?_
        rintro rfl
        simp [hc] at hnewline
    · split
      · exact quoted?_multilineBasic text hdouble
      · split
        · next hliteral => exact quoted?_multilineLiteral (hplain hliteral.1) hliteral.2 hsingle
        · split
          · exact quoted?_multilineBasic text hdouble
          · exact quoted?_basic text hdouble

end Toml

end SourceEditor

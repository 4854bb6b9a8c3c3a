import SourceEditor.Proofs.Toml.Quoted
import SourceEditor.Toml.Document
import SourceEditor.Toml.Section

/-!
# Written values are read back

`Literal.toChars` writes a truth value, an integer, a text or a list of texts. Read as a value, what
is written gives the literal again and leaves what follows it (`value?_toChars`).

An integer is a word of digits, with a sign or without. It must not be taken for a date or for a
number in another base, and it must not start with a zero (`integer?_writeInteger`,
`isDay_writeInteger`). A list of more than one text has each of them on a line of its own, with a
comma behind it, also behind the last one: there the reader looks for one more text, finds the
bracket, and goes back to the comma (`separated_lines`).
-/

namespace SourceEditor

theorem Hexadecimal.digit?_of_isDigit {c : Char} (h : c.isDigit = true) :
    digit? c = some (c.toNat - '0'.toNat) := by
  have hrange : ('0' ≤ c && c ≤ '9') = true := by
    simpa [Char.isDigit, Char.le_def] using h
  rw [digit?, if_pos hrange]

namespace Toml

/-! ## Integers -/

variable {ds : List Char}

theorem digits?_of_forall (hne : ds ≠ []) (h : ∀ c ∈ ds, c.isDigit = true) :
    digits? Char.isDigit ds = some ds := by
  fun_induction digits? Char.isDigit ds with
  | case1 => exact absurd rfl hne
  | case2 d hd => rfl
  | case3 d hd => exact absurd (h d (by simp)) hd
  | case4 d ds hd ih => exact absurd (h '_' (by simp)) (by decide)
  | case5 d ds hd => exact absurd (h '_' (by simp)) (by decide)
  | case6 d ds hnil hunderscore hd ih =>
    rw [ih (by simpa using hnil) fun c hc => h c (by simp [hc])]
    rfl
  | case7 d ds _ _ hd => exact absurd (h d (by simp)) hd

theorem ofDigits_ten (h : ∀ c ∈ ds, c.isDigit = true) :
    ofDigits 10 ds = Nat.ofDigitChars 10 ds 0 := by
  rw [ofDigits, Nat.ofDigitChars]
  refine List.foldl_ext _ _ _ fun n d hd => ?_
  rw [Hexadecimal.digit?_of_isDigit (h d hd), Option.getD_some]

theorem isDigit_of_mem_toDigits {n : Nat} : ∀ c ∈ Nat.toDigits 10 n, c.isDigit = true :=
  fun _ hc => Nat.isDigit_of_mem_toDigits (by decide) (by decide) hc

theorem head?_toDigits_ne {n : Nat} (h : 0 < n) : (Nat.toDigits 10 n).head? ≠ some '0' := by
  induction n using Nat.strongRecOn with
  | ind n ih =>
    by_cases hlt : n < 10
    · rw [Nat.toDigits_of_lt_base hlt]
      have hdigit : ∀ n < 10, 0 < n → [n.digitChar].head? ≠ some '0' := by decide
      exact hdigit n hlt h
    · rw [Nat.toDigits_of_base_le (by decide) (by omega), List.head?_append_of_ne_nil _
        Nat.toDigits_ne_nil]
      exact ih (n / 10) (by omega) (by omega)

theorem hasLeadingZero_toDigits (n : Nat) : hasLeadingZero (Nat.toDigits 10 n) = false := by
  rcases Nat.eq_zero_or_pos n with rfl | hpos
  · rfl
  · have hhead := head?_toDigits_ne hpos
    rw [hasLeadingZero.eq_def]
    split
    · next heq => simp [heq] at hhead
    · rfl

theorem decimal?_toDigits (n : Nat) :
    (decimal? (Nat.toDigits 10 n)).map (ofDigits 10) = some n := by
  rw [decimal?, digits?_of_forall Nat.toDigits_ne_nil isDigit_of_mem_toDigits]
  simp only [Option.filter_some, hasLeadingZero_toDigits, Bool.not_false, if_true, Option.map_some,
    ofDigits_ten isDigit_of_mem_toDigits, Nat.ofDigitChars_toDigits (by decide : 1 < 10)
      (Nat.le_refl 10)]

/-- Digits are a number in base ten, whatever the first of them is. -/
theorem natural?_of_forall (h : ∀ c ∈ ds, c.isDigit = true) :
    natural? ds = (decimal? ds).map (ofDigits 10) := by
  rw [natural?.eq_def]
  split
  · exact absurd (h 'x' (by simp)) (by decide)
  · exact absurd (h 'o' (by simp)) (by decide)
  · exact absurd (h 'b' (by simp)) (by decide)
  · rfl

theorem anyInteger?_writeInteger (n : Int) : anyInteger? (writeInteger n) = some n := by
  cases n with
  | ofNat n =>
    have hnatural := (natural?_of_forall isDigit_of_mem_toDigits).trans (decimal?_toDigits n)
    rw [writeInteger, anyInteger?.eq_def]
    split
    · next heq => exact absurd (isDigit_of_mem_toDigits (n := n) '+' (by simp [heq])) (by decide)
    · next heq => exact absurd (isDigit_of_mem_toDigits (n := n) '-' (by simp [heq])) (by decide)
    · rw [hnatural]
      rfl
  | negSucc n =>
    obtain ⟨ds, hdecimal, hdigits⟩ := Option.map_eq_some_iff.mp (decimal?_toDigits (n + 1))
    rw [writeInteger, anyInteger?, hdecimal, Option.map_some, hdigits]
    rfl

theorem integer?_writeInteger {n : Int} (h : -0x8000000000000000 ≤ n ∧ n < 0x8000000000000000) :
    integer? (writeInteger n) = some n := by
  rw [integer?, anyInteger?_writeInteger, Option.filter_some, if_pos (decide_eq_true h)]

/-! ## Words -/

theorem isWordChar_of_isDigit {c : Char} (h : c.isDigit = true) : isWordChar c = true := by
  simp [isWordChar, Char.isAlphanum, h]

theorem mem_writeInteger {n : Int} {c : Char} (h : c ∈ writeInteger n) :
    c = '-' ∨ c.isDigit = true := by
  cases n with
  | ofNat n => exact Or.inr (isDigit_of_mem_toDigits c h)
  | negSucc n => exact (List.mem_cons.mp h).imp_right (isDigit_of_mem_toDigits c)

theorem writeInteger_ne_nil (n : Int) : writeInteger n ≠ [] := by
  cases n with
  | ofNat n => exact Nat.toDigits_ne_nil
  | negSucc n => exact List.cons_ne_nil _ _

theorem isWordChar_of_mem_writeInteger {n : Int} : ∀ c ∈ writeInteger n, isWordChar c = true := by
  intro c hc
  obtain rfl | hdigit := mem_writeInteger hc
  · decide
  · exact isWordChar_of_isDigit hdigit

theorem marked?_eq_none {mark c : Char} (h : c ≠ mark) (low high : Nat) (cs : List Char) :
    marked? mark low high (c :: cs) = none := by
  rw [marked?, if_neg h]

/-- A date has a minus sign after its first four digits, where an integer has none. -/
theorem takeDate?_writeInteger (n : Int) : takeDate? (writeInteger n) = none := by
  cases n with
  | ofNat n =>
    have hmonth : marked? '-' 1 12 ((Nat.toDigits 10 n).drop 4) = none := by
      cases hdrop : (Nat.toDigits 10 n).drop 4 with
      | nil => rfl
      | cons c cs =>
        refine marked?_eq_none ?_ 1 12 cs
        rintro rfl
        have hmem : '-' ∈ Nat.toDigits 10 n := List.mem_of_mem_drop (hdrop ▸ List.mem_cons_self)
        exact absurd (isDigit_of_mem_toDigits '-' hmem) (by decide)
    rw [writeInteger, takeDate?, fixed?]
    split
    · simp [hmonth]
    · rfl
  | negSucc n =>
    have hdigits : ¬ ((writeInteger (.negSucc n)).take 4).all Char.isDigit = true := by
      simp [writeInteger, show Char.isDigit '-' = false by decide]
    rw [takeDate?, fixed?, if_neg fun h => hdigits h.2]
    rfl

theorem isDay_writeInteger (n : Int) : isDay (writeInteger n) = false := by
  rw [isDay, takeDate?_writeInteger]
  rfl

/-- A word of digits and signs is neither of the two truth values. -/
theorem word?_writeInteger {n : Int} (h : -0x8000000000000000 ≤ n ∧ n < 0x8000000000000000) :
    word? (writeInteger n) = some (.integer n) := by
  have hword (c : Char) (cs : List Char) (hc : c ≠ '-' ∧ c.isDigit = false) :
      (writeInteger n == c :: cs) = false := by
    rw [beq_eq_false_iff_ne]
    intro heq
    obtain hminus | hdigit := mem_writeInteger (n := n) (c := c) (by simp [heq])
    · exact hc.1 hminus
    · simp [hc.2] at hdigit
  have htrue := hword 't' ['r', 'u', 'e'] (by decide)
  have hfalse := hword 'f' ['a', 'l', 's', 'e'] (by decide)
  simp only [word?, htrue, hfalse, integer?_writeInteger h]
  rfl

/-- What can follow a value. -/
def EndsValue (rest : List Char) : Prop := ∃ c cs, rest = c :: cs ∧ c ∈ ['\n', ',', ']']

variable {rest : List Char}

theorem scalar?_append {word : List Char} {v : Value} (hword : ∀ c ∈ word, isWordChar c = true)
    (hday : isDay word = false) (hv : word? word = some v) (hrest : EndsValue rest) :
    scalar? (word ++ rest) = some (v, rest) := by
  obtain ⟨c, cs, rfl, hc⟩ := hrest
  have hend : ¬ isWordChar c = true := by
    have hends : ['\n', ',', ']'].all (!isWordChar ·) = true := by decide
    simpa using List.all_eq_true.mp hends c hc
  simp only [scalar?, List.takeWhile_append_of_pos hword, List.dropWhile_append_of_pos hword,
    List.takeWhile_cons_of_neg hend, List.dropWhile_cons_of_neg hend, List.append_nil, hday, hv]
  rfl

theorem value?_of_flat {c : Char} (h : c ≠ '[' ∧ c ≠ '{') (depth : Nat) (cs : List Char) :
    value? depth (c :: cs) = flat? (c :: cs) := by
  cases depth with
  | zero => rfl
  | succ depth =>
    rw [value?.eq_def]
    simp only
    split <;> simp_all

theorem value?_word (depth : Nat) {word : List Char} {v : Value} (hne : word ≠ [])
    (hword : ∀ c ∈ word, isWordChar c = true) (hday : isDay word = false)
    (hv : word? word = some v) (hrest : EndsValue rest) :
    value? depth (word ++ rest) = some (v, rest) := by
  rw [← scalar?_append hword hday hv hrest]
  obtain ⟨c, cs, rfl⟩ := List.exists_cons_of_ne_nil hne
  have hc := hword c (by simp)
  -- brackets and quotes are no characters of words
  have hmarks : ∀ mark ∈ ['[', '{', '"', '\''], c ≠ mark := by
    rintro mark hmark rfl
    have hnone : ['[', '{', '"', '\''].all (!isWordChar ·) = true := by decide
    simpa [hc] using List.all_eq_true.mp hnone c hmark
  rw [List.cons_append, value?_of_flat ⟨hmarks '[' (by simp), hmarks '{' (by simp)⟩, flat?.eq_def]
  split
  · next heq =>
    cases heq
    exact absurd rfl (hmarks '"' (by simp))
  · next heq =>
    cases heq
    exact absurd rfl (hmarks '\'' (by simp))
  · rfl

/-! ## Texts -/

theorem exists_write_cons (text : List Char) :
    ∃ quote cs, write text = quote :: cs ∧ (quote = '"' ∨ quote = '\'') := by
  rw [write]
  simp only [enclose]
  split
  · exact ⟨'"', _, rfl, Or.inl rfl⟩
  · split
    · exact ⟨'\'', _, rfl, Or.inr rfl⟩
    · split
      · exact ⟨'"', _, rfl, Or.inl rfl⟩
      · split
        · exact ⟨'\'', _, rfl, Or.inr rfl⟩
        · split
          · exact ⟨'"', _, rfl, Or.inl rfl⟩
          · exact ⟨'"', _, rfl, Or.inl rfl⟩

theorem value?_write (depth : Nat) (text : List Char) (hrest : EndsValue rest) :
    value? depth (write text ++ rest) = some (.string text, rest) := by
  have hread : quoted? (write text ++ rest) = some (text, rest) := by
    obtain ⟨c, cs, rfl, hc⟩ := hrest
    apply quoted?_write
    · rintro ⟨rfl⟩
      exact absurd hc (by decide)
    · rintro ⟨rfl⟩
      exact absurd hc (by decide)
  obtain ⟨quote, cs, heq, hquote⟩ := exists_write_cons text
  rw [heq, List.cons_append] at hread ⊢
  obtain rfl | rfl := hquote
  · rw [value?_of_flat (by decide), flat?, hread]
    rfl
  · rw [value?_of_flat (by decide), flat?, hread]
    rfl

/-! ## Lists of texts -/

theorem skipBlanks_of_some {s cs : List Char}
    (h : newline? (skipComment (skipSpaces s)) = some cs) : skipBlanks s = skipBlanks cs := by
  rw [skipBlanks.eq_def]
  split
  · next heq =>
    cases h.symm.trans heq
    rfl
  · next heq => cases h.symm.trans heq

theorem skipBlanks_of_none {s : List Char}
    (h : newline? (skipComment (skipSpaces s)) = none) : skipBlanks s = skipSpaces s := by
  rw [skipBlanks.eq_def]
  split
  · next heq => cases h.symm.trans heq
  · rfl

/-- Blanks end at the first character that is none. -/
theorem skipBlanks_cons {c : Char} (h : c ∉ [' ', '\t', '\n', '\r', '#']) (cs : List Char) :
    skipBlanks (c :: cs) = c :: cs := by
  simp only [List.mem_cons, List.not_mem_nil, or_false, not_or] at h
  obtain ⟨hspace, htab, hnewline, hreturn, hcomment⟩ := h
  have hskip := skipSpaces_cons ⟨hspace, htab⟩ cs
  rw [skipBlanks_of_none ?_, hskip]
  rw [hskip, skipComment.eq_def]
  split
  · simp_all
  · exact newline?_eq_none hnewline hreturn cs

theorem skipBlanks_newline (cs : List Char) : skipBlanks ('\n' :: cs) = skipBlanks cs := by
  apply skipBlanks_of_some
  rw [skipSpaces_cons (by decide)]
  rfl

theorem skipBlanks_space (cs : List Char) : skipBlanks (' ' :: cs) = skipBlanks cs := by
  have hskip : skipSpaces (' ' :: cs) = skipSpaces cs := rfl
  cases hnewline : newline? (skipComment (skipSpaces cs)) with
  | some rest => rw [skipBlanks_of_some hnewline, skipBlanks_of_some (hskip ▸ hnewline)]
  | none => rw [skipBlanks_of_none hnewline, skipBlanks_of_none (hskip ▸ hnewline), hskip]

theorem skipBlanks_write (text cs : List Char) :
    skipBlanks (write text ++ cs) = write text ++ cs := by
  obtain ⟨quote, tail, heq, hquote⟩ := exists_write_cons text
  rw [heq, List.cons_append]
  obtain rfl | rfl := hquote
  · exact skipBlanks_cons (by decide) _
  · exact skipBlanks_cons (by decide) _

/-- An item of a list, with the blanks around it. -/
def spacedItem? (depth : Nat) : Reader Value := fun s =>
  (value? depth (skipBlanks s)).map fun (v, rest) => (v, skipBlanks rest)

theorem spacedItem?_write (depth : Nat) (text : List Char) {s : List Char} {c : Char}
    {cs : List Char} (hs : skipBlanks s = write text ++ c :: cs) (hc : c ∈ [',', ']']) :
    spacedItem? depth s = some (.string text, c :: cs) := by
  have hends : EndsValue (c :: cs) := ⟨c, cs, rfl, List.mem_cons_of_mem _ hc⟩
  have hmark : c ∉ [' ', '\t', '\n', '\r', '#'] := by
    simp only [List.mem_cons, List.not_mem_nil, or_false] at hc
    obtain rfl | rfl := hc
    · decide
    · decide
  simp only [spacedItem?, hs, value?_write depth text hends, Option.map_some,
    skipBlanks_cons hmark]

/-- There is no item in front of the closing bracket. -/
theorem spacedItem?_bracket (depth : Nat) {s cs : List Char} (hs : skipBlanks s = ']' :: cs) :
    spacedItem? depth s = none := by
  have hscalar : scalar? (']' :: cs) = none := by
    have hend : ¬ isWordChar ']' = true := by decide
    simp only [scalar?, List.takeWhile_cons_of_neg hend]
    rfl
  have hflat : flat? (']' :: cs) = scalar? (']' :: cs) := rfl
  simp only [spacedItem?, hs, value?_of_flat (by decide : ']' ≠ '[' ∧ ']' ≠ '{') depth, hflat,
    hscalar]
  rfl

theorem separated_eq_none {α : Type} {item : Reader α} {mark : Char} {s : List Char}
    (h : item s = none) : separated item mark s = none := by
  rw [separated.eq_def, h]

/-- An item that no mark follows is the last one. -/
theorem separated_last {α : Type} {item : Reader α} {mark c : Char} {s cs : List Char} {a : α}
    (h : item s = some (a, c :: cs)) (hc : c ≠ mark) :
    separated item mark s = some ([a], c :: cs) := by
  rw [separated.eq_def, h]
  simp [hc]

/-- A mark that no item follows is left. -/
theorem separated_mark_last {α : Type} {item : Reader α} {mark : Char} {s cs : List Char} {a : α}
    (h : item s = some (a, mark :: cs)) (hcs : separated item mark cs = none) :
    separated item mark s = some ([a], mark :: cs) := by
  rw [separated.eq_def, h]
  simp [hcs]

theorem separated_cons {α : Type} {item : Reader α} {mark : Char} {s cs rest : List Char} {a : α}
    {as : List α} (h : item s = some (a, mark :: cs)) (hlt : cs.length < s.length)
    (hcs : separated item mark cs = some (as, rest)) :
    separated item mark s = some (a :: as, rest) := by
  rw [separated.eq_def, h]
  simp [hcs, hlt]

/-- A text on a line of its own with a comma behind it, and the line end before it. -/
def itemLine (text : List Char) : List Char :=
  '\n' :: ' ' :: ' ' :: ' ' :: ' ' :: (write text ++ [','])

theorem skipBlanks_itemLine (text cs : List Char) :
    skipBlanks (itemLine text ++ cs) = write text ++ ',' :: cs := by
  simp only [itemLine, List.cons_append, List.append_assoc, List.nil_append, skipBlanks_newline,
    skipBlanks_space, skipBlanks_write]

theorem separated_lines (depth : Nat) (texts : List (List Char)) (hne : texts ≠ [])
    (rest : List Char) :
    separated (spacedItem? depth) ',' (texts.flatMap itemLine ++ '\n' :: ']' :: rest) =
      some (texts.map .string, ',' :: '\n' :: ']' :: rest) := by
  induction texts with
  | nil => exact absurd rfl hne
  | cons text texts ih =>
    rw [List.flatMap_cons, List.append_assoc]
    have hitem := spacedItem?_write depth text
      (skipBlanks_itemLine text (texts.flatMap itemLine ++ '\n' :: ']' :: rest)) (by simp)
    cases texts with
    | nil =>
      have hend : skipBlanks ('\n' :: ']' :: rest) = ']' :: rest :=
        (skipBlanks_newline _).trans (skipBlanks_cons (by decide) rest)
      exact separated_mark_last hitem (separated_eq_none (spacedItem?_bracket depth hend))
    | cons next texts =>
      refine separated_cons hitem ?_ (ih (by simp))
      simp [itemLine]
      omega

/-- The lines of a list can start with their line ends as well. -/
theorem writeStrings_lines (texts : List (List Char)) :
    ['[', '\n'] ++ texts.flatMap (fun text => "    ".toList ++ write text ++ [',', '\n']) ++ [']'] =
      '[' :: (texts.flatMap itemLine ++ ['\n', ']']) := by
  have hspaces : "    ".toList = [' ', ' ', ' ', ' '] := rfl
  have hshift : '\n' :: texts.flatMap (fun text => "    ".toList ++ write text ++ [',', '\n']) =
      texts.flatMap itemLine ++ ['\n'] := by
    induction texts with
    | nil => rfl
    | cons text texts ih =>
      rw [List.flatMap_cons, List.flatMap_cons, List.append_assoc (itemLine text), ← ih, hspaces]
      simp only [itemLine, List.cons_append, List.append_assoc, List.nil_append]
  simp only [List.cons_append, List.nil_append]
  rw [← List.cons_append, hshift, List.append_assoc]
  rfl

theorem array?_eq (depth : Nat) (s : List Char) :
    array? (value? depth) s =
      match separated (spacedItem? depth) ',' s with
      | none => (expect? ']' (skipBlanks s)).map (.array [], ·)
      | some (items, rest) =>
        (expect? ']' (skipBlanks ((expect? ',' rest).getD rest))).map (.array items, ·) := rfl

theorem value?_writeStrings (depth : Nat) (texts : List (List Char)) (rest : List Char) :
    value? (depth + 1) (writeStrings texts ++ rest) =
      some (.array (texts.map .string), rest) := by
  have hbracket : skipBlanks (']' :: rest) = ']' :: rest := skipBlanks_cons (by decide) rest
  have hstart (cs : List Char) : value? (depth + 1) ('[' :: cs) = array? (value? depth) cs := rfl
  unfold writeStrings
  split
  · have hnone : separated (spacedItem? depth) ',' (']' :: rest) = none :=
      separated_eq_none (spacedItem?_bracket depth hbracket)
    simp only [List.cons_append, List.nil_append, hstart, array?_eq, hnone]
    simp [hbracket, expect?]
  · next text =>
    rw [List.cons_append, hstart, array?_eq, List.append_assoc, List.singleton_append,
      separated_last (spacedItem?_write depth text (skipBlanks_write text _) (by simp))
        (by decide)]
    simp [hbracket, expect?]
  · next hnil hsingle =>
    rw [writeStrings_lines, List.cons_append, hstart, array?_eq, List.append_assoc]
    have hlines := separated_lines depth texts (by simpa using hnil) rest
    simp only [List.cons_append, List.nil_append, hlines]
    simp [expect?, skipBlanks_newline, hbracket]

/-! ## Literals -/

/-- Whether a reader can hold a literal: integers have sixty-four bits. -/
def Literal.Fits : Literal → Prop
  | .integer n => -0x8000000000000000 ≤ n ∧ n < 0x8000000000000000
  | _ => True

/-- **A literal is read back.** -/
theorem value?_toChars (depth : Nat) {l : Literal} (hfits : l.Fits) (hrest : EndsValue rest) :
    value? (depth + 1) (l.toChars ++ rest) = some (l.toValue, rest) := by
  cases l with
  | boolean b =>
    cases b with
    | true =>
      have hword : "true".toList.all isWordChar = true := by decide
      exact value?_word _ (by decide) (List.all_eq_true.mp hword) (by decide) rfl hrest
    | false =>
      have hword : "false".toList.all isWordChar = true := by decide
      exact value?_word _ (by decide) (List.all_eq_true.mp hword) (by decide) rfl hrest
  | integer n =>
    exact value?_word _ (writeInteger_ne_nil n) isWordChar_of_mem_writeInteger
      (isDay_writeInteger n) (word?_writeInteger hfits) hrest
  | string text => exact value?_write (depth + 1) text hrest
  | strings texts => exact value?_writeStrings depth texts rest

end Toml

end SourceEditor

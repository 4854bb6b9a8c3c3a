import SourceEditor.Language
import SourceEditor.Proofs.Token.Coverage

/-!
# How far the lexer looks ahead

A token hangs on what comes before it, on its own characters, and on at most three characters after
it. So two texts with the same beginning have the same tokens there, but for those that stop less
than three characters before the texts part (`Lexer.mem_tokens_append`).

Three characters are what it takes to see that `1` is not the start of `1e+5`, and that an operator
is not the start of a longer one, as long as no operator has more than four characters.

Each reader of the lexer has its own bound (`LooksAhead`). The bounds are put together in the order
in which the lexer is put together: readers of lengths, cuts, one step, all steps.
-/

namespace SourceEditor

/-- A reader of lengths that looks at no more than `ahead` characters past those that it reads: what
it makes of a text does not change with the characters after these. -/
def LooksAhead (ahead : Nat) (read : List Char → Nat) : Prop :=
  ∀ front back other, read (front ++ back) + ahead ≤ front.length →
    read (front ++ other) = read (front ++ back)

/-- A reader that goes on after `n` characters. -/
theorem LooksAhead.drop {read : List Char → Nat} {k n : Nat} (h : LooksAhead k read)
    (front back other : List Char) (hle : n + read ((front ++ back).drop n) + k ≤ front.length) :
    read ((front ++ other).drop n) = read ((front ++ back).drop n) := by
  have hn : n ≤ front.length := by omega
  rw [List.drop_append_of_le_length hn] at hle ⊢
  rw [List.drop_append_of_le_length hn]
  apply h
  rw [List.length_drop]
  omega

theorem LooksAhead.tail {read : List Char → Nat} {k : Nat} (h : LooksAhead k read)
    (front back other : List Char) (hle : 1 + read (front ++ back).tail + k ≤ front.length) :
    read (front ++ other).tail = read (front ++ back).tail := by
  simp only [← List.drop_one] at hle ⊢
  exact h.drop front back other hle

/-! ## Numbers -/

namespace Number

theorem takeWhile_append_of_lt {p : Char → Bool} (front back other : List Char)
    (h : countWhile p (front ++ back) < front.length) :
    (front ++ other).takeWhile p = (front ++ back).takeWhile p := by
  have hfront : (front.takeWhile p).length ≠ front.length := by
    intro hall
    rw [countWhile, List.takeWhile_append, if_pos hall, List.length_append] at h
    omega
  rw [List.takeWhile_append, List.takeWhile_append, if_neg hfront, if_neg hfront]

theorem looksAhead_countWhile (p : Char → Bool) : LooksAhead 1 (countWhile p) := by
  intro front back other h
  rw [countWhile, takeWhile_append_of_lt front back other h, countWhile]

theorem looksAhead_countOne (p : Char → Bool) : LooksAhead 1 (countOne p) := by
  intro front back other h
  cases front with
  | nil => simp at h
  | cons c front => rfl

theorem looksAhead_fraction : LooksAhead 2 fraction := by
  intro front back other h
  match front with
  | [] => simp at h
  | [c] => simp at h
  | point :: d :: front =>
    simp only [List.cons_append, fraction, List.length_cons] at h ⊢
    split
    · next hdigits =>
      rw [if_pos hdigits] at h
      rw [looksAhead_countWhile isDecimal front back other (by omega)]
    · rfl

theorem looksAhead_exponent : LooksAhead 3 exponent := by
  intro front back other h
  match front with
  | [] => simp at h
  | [c] => simp at h
  | [c, d] => simp at h
  | mark :: sign :: d :: front =>
    simp only [List.cons_append, exponent, List.length_cons] at h ⊢
    split
    · next hmark =>
      rw [if_pos hmark] at h
      split
      · next hsign =>
        rw [if_pos hsign] at h
        split
        · next hdigit =>
          rw [if_pos hdigit] at h
          rw [looksAhead_countWhile isDecimal front back other (by omega)]
        · rfl
      · next hsign =>
        rw [if_neg hsign] at h
        split
        · next hdigit =>
          rw [if_pos hdigit] at h
          simp only [← List.cons_append] at h ⊢
          rw [looksAhead_countWhile isDecimal (d :: front) back other
            (by rw [List.length_cons]; omega)]
        · rfl
    · rfl

theorem body_append (first : Char) (front back other : List Char)
    (h : (body first (front ++ back)).2 + 3 ≤ front.length) :
    body first (front ++ other) = body first (front ++ back) := by
  have hhead : (front ++ other).head? = (front ++ back).head? := by
    cases front with
    | nil => simp at h
    | cons c front => rfl
  unfold body at h ⊢
  rw [hhead]
  split
  · next hhex =>
    rw [if_pos hhex] at h
    simp only at h
    rw [(looksAhead_countWhile _).tail front back other (by omega)]
  · next hhex =>
    rw [if_neg hhex] at h
    split
    · next hbin =>
      rw [if_pos hbin] at h
      simp only at h
      rw [(looksAhead_countWhile _).tail front back other (by omega)]
    · next hbin =>
      rw [if_neg hbin] at h
      simp only at h ⊢
      rw [looksAhead_countWhile isDecimal front back other (by omega)]
      by_cases hpoint : first == '.'
      · simp only [hpoint, if_true] at h ⊢
        rw [looksAhead_exponent.drop front back other (by omega),
          (looksAhead_countOne _).drop front back other (by omega)]
      · simp only [hpoint, Bool.false_eq_true, if_false] at h ⊢
        rw [looksAhead_fraction.drop front back other (by omega),
          looksAhead_exponent.drop front back other (by omega),
          (looksAhead_countOne _).drop front back other (by omega)]

theorem scan_append (first : Char) (front back other : List Char)
    (h : (scan first (front ++ back)).2 + 3 ≤ front.length) :
    scan first (front ++ other) = scan first (front ++ back) := by
  simp only [scan] at h ⊢
  rw [body_append first front back other (by omega),
    (looksAhead_countOne _).drop front back other (by omega),
    (looksAhead_countOne _).drop front back other (by omega)]

end Number

open Number (countWhile looksAhead_countWhile looksAhead_countOne takeWhile_append_of_lt)

/-! ## Comments, character literals, names and strings -/

/-- A block comment that stops before the end of the text has its closing mark. -/
theorem looksAhead_blockCommentLength (nested : Bool) (depth : Nat) :
    LooksAhead 1 (blockCommentLength nested depth) := by
  intro front back other h
  fun_induction blockCommentLength nested depth front with
  | case1 => rw [blockCommentLength, blockCommentLength]
  | case2 => simp at h
  | case3 depth c =>
    have hpos : 0 < blockCommentLength nested depth.succ ([c] ++ back) :=
      blockCommentLength_pos nested depth c back
    simp only [List.length_singleton] at h
    omega
  | case4 depth c d cs hclose ih =>
    simp only [List.cons_append, blockCommentLength, if_pos hclose, List.length_cons] at h ⊢
    rw [ih (by omega)]
  | case5 depth c d cs hclose hopen ih =>
    simp only [List.cons_append, blockCommentLength, if_neg hclose, if_pos hopen,
      List.length_cons] at h ⊢
    rw [ih (by omega)]
  | case6 depth c d cs hclose hopen ih =>
    simp only [List.cons_append, blockCommentLength, if_neg hclose, if_neg hopen,
      List.length_cons] at h ih ⊢
    rw [ih (by omega)]

theorem blockCommentKind_tail_append (front back other : List Char) (h : 3 ≤ front.length) :
    blockCommentKind (front ++ other).tail = blockCommentKind (front ++ back).tail := by
  match front with
  | [] => simp at h
  | [c] => simp at h
  | [c, d] => simp at h
  | c :: d :: e :: front => rfl

theorem looksAhead_charLiteralLength : LooksAhead 1 charLiteralLength := by
  intro front back other h
  fun_induction charLiteralLength front with
  | case1 => simp at h
  | case2 c cs hc =>
    unfold charLiteralLength
    simp only [List.cons_append, if_pos hc]
  | case3 c hc hslash d ds hd =>
    unfold charLiteralLength
    simp only [List.cons_append, if_neg hc, if_pos hslash, if_pos hd]
  | case4 c hc hslash d ds hd ih =>
    unfold charLiteralLength at h ⊢
    simp only [List.cons_append, if_neg hc, if_pos hslash, if_neg hd, List.length_cons] at h ⊢
    rw [ih (by omega)]
  | case5 c hc hslash =>
    -- the backslash itself is read, so the text has to go on
    unfold charLiteralLength at h
    simp only [List.cons_append, if_neg hc, if_pos hslash, List.length_singleton] at h
    split at h
    · split at h <;> omega
    · omega
  | case6 c cs hc hslash hquote =>
    unfold charLiteralLength
    simp only [List.cons_append, if_neg hc, if_neg hslash, if_pos hquote]
  | case7 c cs hc hslash hquote ih =>
    unfold charLiteralLength at h ⊢
    simp only [List.cons_append, if_neg hc, if_neg hslash, if_neg hquote, List.length_cons] at h ⊢
    rw [ih (by omega)]

theorem looksAhead_backtickLength : LooksAhead 1 backtickLength := by
  intro front back other h
  simp only [backtickLength] at h ⊢
  rw [looksAhead_countWhile _ front back other (by omega),
    (looksAhead_countOne _).drop front back other (by omega)]

theorem exists_eq_cons_of_append {front back cs : List Char} {c : Char}
    (h : front ++ back = c :: cs) (hpos : 0 < front.length) :
    ∃ front', front = c :: front' ∧ front' ++ back = cs := by
  obtain ⟨rfl, -⟩ | ⟨front', rfl, rfl⟩ := List.append_eq_cons_iff.mp h
  · simp at hpos
  · exact ⟨front', rfl, rfl⟩

theorem startsTemplate_append (front back other : List Char) (h : 0 < front.length) :
    startsTemplate (front ++ other) = startsTemplate (front ++ back) := by
  cases front with
  | nil => simp at h
  | cons c front => rfl

/-- A template entry is seen two characters after the string text before it, and so are the quotes
of which a raw string needs three. -/
theorem stringText_append {rules : Rules} {raw : Bool} {front back text : List Char}
    (htext : front ++ back = text) (h : (stringText rules raw text).length + 2 ≤ front.length)
    (other : List Char) : stringText rules raw (front ++ other) = stringText rules raw text := by
  fun_induction stringText rules raw text generalizing front with
  | case1 =>
    obtain rfl : front = [] := (List.append_eq_nil_iff.mp htext).1
    simp at h
  | case2 c cs hc hraw ih =>
    obtain ⟨front, rfl, rfl⟩ := exists_eq_cons_of_append htext (by omega)
    simp only [StringText.after, List.length_cons] at h
    have hcount : countWhile (· == '"') (front ++ back) < 2 := by simp_all
    rw [← looksAhead_countWhile _ front back other (by omega)] at hraw
    rw [stringText.eq_def, List.cons_append]
    simp only [if_pos hc, if_pos hraw]
    rw [ih rfl (by omega)]
  | case3 c cs hc h₁ h₂ =>
    obtain ⟨front, rfl, rfl⟩ := exists_eq_cons_of_append htext (by omega)
    simp only [List.length_cons] at h
    rw [← looksAhead_countWhile _ front back other (by omega)] at h₁ ⊢
    rw [stringText.eq_def, List.cons_append]
    simp only [if_pos hc, if_neg h₁, if_pos h₂]
  | case4 c cs hc h₁ h₂ =>
    obtain ⟨front, rfl, rfl⟩ := exists_eq_cons_of_append htext (by omega)
    rw [stringText.eq_def, List.cons_append]
    simp [hc, h₂]
  | case5 c cs hc h₁ =>
    obtain ⟨front, rfl, rfl⟩ := exists_eq_cons_of_append htext (by omega)
    rw [stringText.eq_def, List.cons_append]
    simp only [if_neg hc, if_pos h₁]
  | case6 c hc h₁ h₂ d ds hd =>
    obtain ⟨front, rfl, htail⟩ := exists_eq_cons_of_append htext (by omega)
    simp only [List.length_cons] at h
    obtain ⟨front, rfl, rfl⟩ := exists_eq_cons_of_append htail (by omega)
    rw [stringText.eq_def, List.cons_append, List.cons_append]
    simp only [if_neg hc, if_neg h₁, if_pos h₂, if_pos hd]
  | case7 c hc h₁ h₂ d ds hd ih =>
    obtain ⟨front, rfl, htail⟩ := exists_eq_cons_of_append htext (by omega)
    simp only [StringText.after, List.length_cons] at h
    obtain ⟨front, rfl, rfl⟩ := exists_eq_cons_of_append htail (by omega)
    simp only [List.length_cons] at h
    rw [stringText.eq_def, List.cons_append, List.cons_append]
    simp only [if_neg hc, if_neg h₁, if_pos h₂, if_neg hd]
    rw [ih rfl (by omega)]
  | case8 c hc h₁ h₂ =>
    have hlength := congrArg List.length htext
    simp only [List.length_append, List.length_singleton] at hlength
    omega
  | case9 c cs hc h₁ h₂ h₃ =>
    obtain ⟨front, rfl, rfl⟩ := exists_eq_cons_of_append htext (by omega)
    simp only [List.length_cons] at h
    rw [← startsTemplate_append front back other (by omega)] at h₃
    rw [stringText.eq_def, List.cons_append]
    simp only [if_neg hc, if_neg h₁, if_neg h₂, if_pos h₃]
  | case10 c cs hc h₁ h₂ h₃ ih =>
    obtain ⟨front, rfl, rfl⟩ := exists_eq_cons_of_append htext (by omega)
    simp only [StringText.after, List.length_cons] at h
    rw [← startsTemplate_append front back other (by omega)] at h₃
    rw [stringText.eq_def, List.cons_append]
    simp only [if_neg hc, if_neg h₁, if_neg h₂, if_neg h₃]
    rw [ih rfl (by omega)]

/-! ## Cuts -/

attribute [ext] Cut

theorem head?_append (front back other : List Char) (h : 0 < front.length) :
    (front ++ other).head? = (front ++ back).head? := by
  cases front with
  | nil => simp at h
  | cons c front => rfl

theorem head?_tail_append (front back other : List Char) (h : 1 < front.length) :
    (front ++ other).tail.head? = (front ++ back).tail.head? := by
  cases front with
  | nil => simp at h
  | cons c front => exact head?_append front back other (by simpa using h)

theorem isPrefixOf_append {word : List Char} (front back other : List Char)
    (h : word.length ≤ front.length) :
    word.isPrefixOf (front ++ other) = word.isPrefixOf (front ++ back) := by
  have hiff (rest : List Char) : word <+: front ++ rest ↔ word <+: front :=
    ⟨fun hword => List.prefix_of_prefix_length_le hword (List.prefix_append front rest) h,
      fun hword => hword.trans (List.prefix_append front rest)⟩
  rw [Bool.eq_iff_iff, List.isPrefixOf_iff_prefix, List.isPrefixOf_iff_prefix, hiff, hiff]

theorem Cut.length_getD (piece? : Option Cut) (piece : Cut) :
    (piece?.getD piece).length = piece?.elim piece.length Cut.length := by
  cases piece? <;> rfl

section StringToken

variable {rules : Rules} {raw : Bool} {outer : List Mode} {before : Nat} {cs : List Char}

theorem le_elim_stringToken (rules : Rules) (raw : Bool) (outer : List Mode) (before : Nat)
    (cs : List Char) :
    before + (stringText rules raw cs).length ≤
      (stringToken rules raw outer before cs).elim before Cut.length := by
  cases h : (stringText rules raw cs).stop with
  | closed =>
    rw [stringToken_of_closed h, Option.elim_some]
  | unterminated =>
    rw [stringToken_of_unterminated h]
    split
    · rw [Option.elim_some]
    · rw [Option.elim_none]
      omega
  | template =>
    rw [stringToken_of_template h]
    split
    · rw [Option.elim_some]
    · split <;> simp only [Option.elim_some] <;> omega

/-- String text, or the template entry that follows it. -/
theorem stringToken_append (front back other : List Char)
    (h : (stringToken rules raw outer before (front ++ back)).elim before Cut.length + 3 ≤
      before + front.length) :
    stringToken rules raw outer before (front ++ other) =
      stringToken rules raw outer before (front ++ back) := by
  have hle := le_elim_stringToken rules raw outer before (front ++ back)
  have htext := stringText_append rfl (by omega :
    (stringText rules raw (front ++ back)).length + 2 ≤ front.length) other
  cases hstop : (stringText rules raw (front ++ back)).stop with
  | closed =>
    rw [stringToken_of_closed (htext ▸ hstop), stringToken_of_closed hstop]
    simp only [htext]
  | unterminated =>
    rw [stringToken_of_unterminated (htext ▸ hstop), stringToken_of_unterminated hstop]
    simp only [htext]
  | template =>
    rw [stringToken_of_template hstop] at h
    rw [stringToken_of_template (htext ▸ hstop), stringToken_of_template hstop]
    simp only [htext]
    split
    · rfl
    · next hzero =>
      rw [dif_neg hzero] at h
      have hhead := head?_tail_append front back other (by omega)
      rw [hhead]
      split
      · rfl
      · next hbrace =>
        rw [if_neg hbrace, Option.elim_some] at h
        simp only at h
        refine congrArg some (Cut.ext rfl ?_ rfl)
        simp only
        rw [(looksAhead_countWhile _).tail front back other (by omega)]

end StringToken

theorem openString_append {rules : Rules} {modes : List Mode} (front back other : List Char)
    (h : (openString rules modes (front ++ back)).length + 2 ≤ front.length) :
    openString rules modes (front ++ other) = openString rules modes (front ++ back) := by
  have hpos := (openString rules modes (front ++ back)).length_pos
  have hquotes : ['"', '"'].isPrefixOf (front ++ other) = ['"', '"'].isPrefixOf (front ++ back) :=
    isPrefixOf_append front back other (by simp only [List.length_cons, List.length_nil]; omega)
  unfold openString at h ⊢
  rw [hquotes]
  split
  · next hraw =>
    rw [if_pos hraw, Cut.length_getD, List.drop_append_of_le_length (by omega)] at h
    rw [List.drop_append_of_le_length (by omega), List.drop_append_of_le_length (by omega),
      stringToken_append (front.drop 2) back other
        (by rw [List.length_drop]; simp only at h; omega)]
  · next hraw =>
    rw [if_neg hraw, Cut.length_getD] at h
    rw [stringToken_append front back other (by simp only [Cut.single] at h; omega)]

theorem longestOperator_append {rules : Rules} (front back other : List Char)
    (h : ∀ op ∈ rules.operators, op.length ≤ front.length) :
    longestOperator rules (front ++ other) = longestOperator rules (front ++ back) := by
  have hfilter : (rules.operators.map String.toList).filter (·.isPrefixOf (front ++ other)) =
      (rules.operators.map String.toList).filter (·.isPrefixOf (front ++ back)) := by
    refine List.filter_congr fun op hop => ?_
    obtain ⟨word, hword, rfl⟩ := List.mem_map.mp hop
    exact isPrefixOf_append front back other (String.length_toList ▸ h word hword)
  rw [longestOperator, hfilter, longestOperator]

/-- Whether no operator has more than four characters. -/
def Rules.ShortOperators (rules : Rules) : Prop := ∀ op ∈ rules.operators, op.length ≤ 4

theorem Language.shortOperators_rules (language : Language) : language.rules.ShortOperators := by
  cases language
  · change ∀ op ∈ Rules.java.operators, op.length ≤ 4
    decide
  · change ∀ op ∈ Rules.kotlin.operators, op.length ≤ 4
    decide

theorem operatorToken_append {rules : Rules} (short : rules.ShortOperators) {modes : List Mode}
    (c : Char) (front back other : List Char) (h : 3 ≤ front.length) :
    operatorToken rules modes c (front ++ other) = operatorToken rules modes c (front ++ back) := by
  have hlongest := longestOperator_append (c :: front) back other fun op hop => by
    have := short op hop
    rw [List.length_cons]
    omega
  rw [operatorToken, ← List.cons_append, hlongest, List.cons_append, ← operatorToken]

/-- One branch of a choice between cuts, made for two texts. -/
theorem eq_of_ite {p : Prop} [Decidable p] {first first' : Cut} {rest rest' : Option Cut} {n : Nat}
    (hfirst : p → first.length ≤ n → first' = first)
    (hrest : (∀ piece, rest = some piece → piece.length ≤ n) → rest' = rest)
    (h : ∀ piece, (if p then some first else rest) = some piece → piece.length ≤ n) :
    (if p then some first' else rest') = if p then some first else rest := by
  by_cases hp : p
  · rw [if_pos hp] at h ⊢
    rw [if_pos hp, hfirst hp (h first rfl)]
  · rw [if_neg hp] at h ⊢
    rw [if_neg hp, hrest h]

theorem plainToken?_append {rules : Rules} {atStart : Bool} {modes : List Mode} {c : Char}
    (front back other : List Char) (hpos : 0 < front.length)
    (h : ∀ piece, plainToken? rules atStart modes c (front ++ back) = some piece →
      piece.length ≤ front.length - 2) :
    plainToken? rules atStart modes c (front ++ other) =
      plainToken? rules atStart modes c (front ++ back) := by
  have hhead := head?_append front back other hpos
  unfold plainToken? at h ⊢
  rw [hhead]
  revert h
  refine eq_of_ite (fun _ hle => Cut.ext rfl ?_ rfl) ?_
  · simp only at hle ⊢
    rw [looksAhead_countWhile _ front back other (by omega)]
  refine eq_of_ite (fun _ hle => Cut.ext rfl ?_ rfl) ?_
  · simp only at hle ⊢
    rw [looksAhead_countWhile _ front back other (by omega)]
  refine eq_of_ite (fun _ hle => Cut.ext rfl ?_ rfl) ?_
  · simp only at hle ⊢
    rw [looksAhead_countWhile _ front back other (by omega)]
  refine eq_of_ite (fun _ hle => Cut.ext ?_ ?_ rfl) ?_
  · simp only at hle ⊢
    rw [blockCommentKind_tail_append front back other (by omega)]
  · simp only at hle ⊢
    rw [(looksAhead_blockCommentLength _ _).tail front back other (by omega)]
  refine eq_of_ite (fun _ hle => ?_) ?_
  · have := (openString rules modes (front ++ back)).length_pos
    exact openString_append front back other (by omega)
  refine eq_of_ite (fun _ hle => Cut.ext rfl ?_ rfl) ?_
  · simp only at hle ⊢
    rw [looksAhead_charLiteralLength front back other (by omega)]
  refine eq_of_ite (fun _ hle => Cut.ext rfl ?_ rfl) ?_
  · simp only at hle ⊢
    rw [looksAhead_backtickLength front back other (by omega)]
  refine eq_of_ite (fun _ hle => ?_) ?_
  · simp only at hle ⊢
    simp only [Number.scan_append c front back other (by omega)]
  refine eq_of_ite (fun _ hle => Cut.ext ?_ ?_ rfl) ?_
  · simp only at hle ⊢
    rw [takeWhile_append_of_lt front back other (by omega)]
  · simp only at hle ⊢
    rw [looksAhead_countWhile _ front back other (by omega)]
  refine eq_of_ite (fun _ _ => rfl) ?_
  refine eq_of_ite (fun _ _ => rfl) ?_
  exact fun _ => rfl

theorem codeToken_append {rules : Rules} (short : rules.ShortOperators) {atStart : Bool}
    {modes : List Mode} {c : Char} {piece : Cut} (front back other : List Char)
    (h : codeToken rules atStart modes c (front ++ back) = .ok piece)
    (hle : piece.length + 2 ≤ front.length) :
    codeToken rules atStart modes c (front ++ other) = .ok piece := by
  have hpos := piece.length_pos
  have hplain : plainToken? rules atStart modes c (front ++ other) =
      plainToken? rules atStart modes c (front ++ back) := by
    refine plainToken?_append front back other (by omega) fun first hfirst => ?_
    rw [codeToken, hfirst] at h
    obtain rfl : first = piece := Except.ok.inj h
    omega
  rw [← h, codeToken, codeToken, hplain, operatorToken_append short c front back other (by omega)]

/-! ## The lexer -/

namespace Lexer

theorem cut_append {rules : Rules} (short : rules.ShortOperators) {lexer : Lexer} {c : Char}
    {piece : Cut} (front back other : List Char)
    (h : lexer.cut rules c (front ++ back) = .ok piece) (hle : piece.length + 2 ≤ front.length) :
    lexer.cut rules c (front ++ other) = .ok piece := by
  unfold cut at h ⊢
  split at h
  · next raw outer hmodes =>
    have hstring : stringToken rules raw outer 0 (c :: (front ++ other)) =
        stringToken rules raw outer 0 (c :: (front ++ back)) := by
      refine stringToken_append (c :: front) back other ?_
      rw [List.cons_append, List.length_cons]
      cases hfirst : stringToken rules raw outer 0 (c :: (front ++ back)) with
      | none =>
        have := piece.length_pos
        rw [Option.elim_none]
        omega
      | some first =>
        rw [hfirst] at h
        obtain rfl : first = piece := Except.ok.inj h
        rw [Option.elim_some]
        omega
    simp only [hstring]
    split
    · next hfirst =>
      rw [hfirst] at h
      exact h
    · next hfirst =>
      rw [hfirst] at h
      exact codeToken_append short front back other h hle
  · exact codeToken_append short front back other h hle

/-- A step that ends three characters before two texts part is the same for both. -/
theorem next_append {rules : Rules} (short : rules.ShortOperators) {offset : Nat}
    {modes : List Mode} {token : Token} {after : Lexer} (front back other : List Char)
    (h : next rules ⟨offset, front ++ back, modes⟩ = .ok (some (token, after)))
    (hle : token.stop + 3 ≤ offset + front.length) :
    after = ⟨token.stop, front.drop token.text.length ++ back, after.modes⟩ ∧
      next rules ⟨offset, front ++ other, modes⟩ =
        .ok (some (token, ⟨token.stop, front.drop token.text.length ++ other, after.modes⟩)) := by
  obtain ⟨hstart, -, hrest, hoffset⟩ := next_eq_some h
  have hlength : token.text.length + 3 ≤ front.length := by
    rw [Token.stop, hstart] at hle
    simp only at hle
    omega
  have hafter : after.rest = front.drop token.text.length ++ back := by
    have hdrop := congrArg (List.drop token.text.length) hrest
    rw [List.drop_left, List.drop_append_of_le_length (by omega)] at hdrop
    exact hdrop.symm
  refine ⟨by rw [← hoffset, ← hafter], ?_⟩
  cases front with
  | nil => simp at hlength
  | cons c front =>
    simp only [next, List.cons_append] at h ⊢
    split at h
    · cases h
    · next piece hcut =>
      have hinside := cut_length_le hcut
      cases h
      have hpiece : ((c :: (front ++ back)).take piece.length).length = piece.length := by
        rw [List.length_take]
        omega
      rw [hpiece, List.length_cons] at hlength
      have hcut' :
          cut rules ⟨offset, c :: (front ++ other), modes⟩ c (front ++ other) = .ok piece :=
        cut_append short front back other hcut (by omega)
      rw [hcut']
      simp only [Token.stop, hpiece]
      simp only [← List.cons_append]
      rw [List.take_append_of_le_length (by rw [List.length_cons]; omega),
        List.take_append_of_le_length (by rw [List.length_cons]; omega),
        List.drop_append_of_le_length (by rw [List.length_cons]; omega)]

/-- **Texts with the same beginning have the same tokens there**, but for those that stop less than
three characters before the texts part. -/
theorem mem_tokens_append {rules : Rules} (productive : rules.Productive)
    (short : rules.ShortOperators) {ts ts' : List Token} {offset : Nat} {modes : List Mode}
    {front back other : List Char} (h : tokens rules ⟨offset, front ++ back, modes⟩ = .ok ts)
    (h' : tokens rules ⟨offset, front ++ other, modes⟩ = .ok ts') {t : Token} (ht : t ∈ ts)
    (hle : t.stop + 3 ≤ offset + front.length) : t ∈ ts' := by
  induction ts generalizing offset modes front ts' with
  | nil => simp at ht
  | cons u us ih =>
    obtain ⟨after, hnext, hus⟩ := exists_next_of_tokens h
    obtain ⟨hstart, -, -, hoffset⟩ := next_eq_some hnext
    -- the first token stops before all others, so the lexer reads it from both texts
    have hu : u.stop + 3 ≤ offset + front.length := by
      rcases List.mem_cons.mp ht with rfl | ht
      · exact hle
      · have hbefore := (tiles_of_tokens hus).offset_le t ht
        rw [hoffset] at hbefore
        rw [Token.stop] at hle
        omega
    obtain ⟨hafter, hnext'⟩ := next_append short front back other hnext hu
    obtain ⟨us', hus'⟩ := exists_tokens_eq_ok productive
      ⟨u.stop, front.drop u.text.length ++ other, after.modes⟩
    rw [tokens_of_next hnext', hus'] at h'
    obtain rfl : u :: us' = ts' := Except.ok.inj h'
    rcases List.mem_cons.mp ht with rfl | ht
    · exact List.mem_cons_self
    · rw [hafter] at hus
      refine List.mem_cons_of_mem u (ih hus hus' ht ?_)
      have hstop : u.stop = offset + u.text.length := by rw [Token.stop, hstart]
      rw [List.length_drop]
      omega

end Lexer

theorem Language.mem_tokens_append (language : Language) (front back other : List Char) {t : Token}
    (ht : t ∈ language.tokens (front ++ back)) (hle : t.stop + 3 ≤ front.length) :
    t ∈ language.tokens (front ++ other) := by
  have htokens := lex_eq_ok language.productive_rules (front ++ back)
  have htokens' := lex_eq_ok language.productive_rules (front ++ other)
  exact Lexer.mem_tokens_append language.productive_rules language.shortOperators_rules htokens
    htokens' ht (by simpa using hle)

end SourceEditor

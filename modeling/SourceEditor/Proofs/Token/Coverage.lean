import SourceEditor.Token.Lexer
import Mathlib.Data.List.Chain

/-!
# The tokens of a text cover it

Whatever the rules and whatever the text, the tokens lie end to end: the first starts at the
beginning of the text, each starts where the one before it stops, none is empty, and the last stops
at the end of the text (`lex_covers`). The rules need no empty operator for that, and nothing else.

A reader of the lexer answers with a length, and the lexer drops as many characters. The first half
of this module says of each reader that it reads no more than there is, which makes every cut lie
inside the text (`Lexer.cut_length_le`). The second half follows the lexer through the text:
`Tiles` is what one step keeps, and the facts about whole token lists are read off it.
-/

namespace SourceEditor

/-! ## Readers stay inside the text -/

namespace Number

theorem countWhile_le (p : Char → Bool) (cs : List Char) : countWhile p cs ≤ cs.length :=
  (List.takeWhile_sublist p).length_le

theorem countOne_le (p : Char → Bool) (cs : List Char) : countOne p cs ≤ cs.length := by
  cases cs with
  | nil => simp [countOne]
  | cons c cs =>
    simp only [countOne, List.length_cons]
    split <;> omega

theorem fraction_le (cs : List Char) : fraction cs ≤ cs.length := by
  unfold fraction
  split
  · next point d cs =>
    have := countWhile_le isDecimal cs
    simp only [List.length_cons]
    split <;> omega
  · omega

theorem exponent_le (cs : List Char) : exponent cs ≤ cs.length := by
  unfold exponent
  split
  · next mark cs =>
    split
    · split
      · next sign ds =>
        have h₁ := countWhile_le isDecimal ds
        split
        · split
          · next d rest =>
            have h₂ := countWhile_le isDecimal rest
            simp only [List.length_cons]
            split <;> omega
          · omega
        · simp only [List.length_cons]
          split <;> omega
      · omega
    · omega
  · omega

/-- A part of a number that starts after `n` characters ends inside the text. -/
theorem add_le_length {n m : Nat} {cs : List Char} (hn : n ≤ cs.length)
    (hm : m ≤ (cs.drop n).length) : n + m ≤ cs.length := by
  rw [List.length_drop] at hm
  omega

theorem body_le (first : Char) (cs : List Char) : (body first cs).2 ≤ cs.length := by
  unfold body
  split
  · next h =>
    obtain ⟨c, cs, rfl⟩ : ∃ c ds, cs = c :: ds := by
      cases cs with
      | nil => simp at h
      | cons c cs => exact ⟨c, cs, rfl⟩
    have := countWhile_le isHexadecimal cs
    simp only [List.tail_cons, List.length_cons]
    omega
  · split
    · next h =>
      obtain ⟨c, cs, rfl⟩ : ∃ c ds, cs = c :: ds := by
        cases cs with
        | nil => simp at h
        | cons c cs => exact ⟨c, cs, rfl⟩
      have := countWhile_le isBinary cs
      simp only [List.tail_cons, List.length_cons]
      omega
    · have whole := countWhile_le isDecimal cs
      have frac : (if first == '.' then 0 else fraction (cs.drop (countWhile isDecimal cs))) ≤
          (cs.drop (countWhile isDecimal cs)).length := by
        split
        · omega
        · exact fraction_le _
      exact add_le_length (add_le_length (add_le_length whole frac) (exponent_le _))
        (countOne_le _ _)

theorem scan_le (first : Char) (cs : List Char) : (scan first cs).2 ≤ cs.length :=
  add_le_length (add_le_length (body_le first cs) (countOne_le _ _)) (countOne_le _ _)

end Number

open Number (countWhile countWhile_le countOne_le add_le_length)

theorem blockCommentLength_le (nested : Bool) (depth : Nat) (cs : List Char) :
    blockCommentLength nested depth cs ≤ cs.length := by
  fun_induction blockCommentLength nested depth cs with
  | case1 => omega
  | case2 => omega
  | case3 => simp
  | case4 depth c d cs h ih =>
    simp only [List.length_cons]
    omega
  | case5 depth c d cs h₁ h₂ ih =>
    simp only [List.length_cons]
    omega
  | case6 depth c d cs h₁ h₂ ih =>
    simp only [List.length_cons] at ih ⊢
    omega

theorem blockCommentLength_pos (nested : Bool) (depth : Nat) (c : Char) (cs : List Char) :
    0 < blockCommentLength nested (depth + 1) (c :: cs) := by
  cases cs with
  | nil => simp [blockCommentLength]
  | cons d cs =>
    rw [blockCommentLength]
    split
    · omega
    · split <;> omega

theorem charLiteralLength_le (cs : List Char) : charLiteralLength cs ≤ cs.length := by
  fun_induction charLiteralLength cs with
  | case1 => simp
  | case2 => simp
  | case3 => simp
  | case4 c cs hc hslash d hd ih =>
    simp only [List.length_cons]
    omega
  | case5 => simp
  | case6 => simp
  | case7 c cs h₁ h₂ h₃ ih =>
    simp only [List.length_cons]
    omega

theorem backtickLength_le (cs : List Char) : backtickLength cs ≤ cs.length :=
  add_le_length (countWhile_le _ _) (countOne_le _ _)

theorem stringText_length_le (rules : Rules) (raw : Bool) (cs : List Char) :
    (stringText rules raw cs).length ≤ cs.length := by
  fun_induction stringText rules raw cs with
  | case1 => simp
  | case2 c cs hc hraw ih =>
    simp only [StringText.after, List.length_cons]
    omega
  | case3 c cs hc h₁ h₂ =>
    have := countWhile_le (· == '"') cs
    simp only [List.length_cons]
    omega
  | case4 => simp
  | case5 => simp
  | case6 => simp
  | case7 c h₁ h₂ h₃ d ds hd ih =>
    simp only [StringText.after, List.length_cons]
    omega
  | case8 => simp
  | case9 => simp
  | case10 c cs h₁ h₂ h₃ h₄ ih =>
    simp only [StringText.after, List.length_cons]
    omega

/-- String text that stops before a template entry has the `$` of the entry left. -/
theorem stringText_length_lt {rules : Rules} {raw : Bool} {cs : List Char}
    (h : (stringText rules raw cs).stop = .template) :
    (stringText rules raw cs).length < cs.length := by
  fun_induction stringText rules raw cs with
  | case1 => cases h
  | case2 c cs hc hraw ih =>
    have := ih h
    simp only [StringText.after, List.length_cons]
    omega
  | case3 => cases h
  | case4 => cases h
  | case5 => cases h
  | case6 => cases h
  | case7 c h₁ h₂ h₃ d ds hd ih =>
    have := ih h
    simp only [StringText.after, List.length_cons]
    omega
  | case8 => cases h
  | case9 => simp
  | case10 c cs h₁ h₂ h₃ h₄ ih =>
    have := ih h
    simp only [StringText.after, List.length_cons]
    omega

theorem length_le_of_longestOperator {rules : Rules} {cs : List Char} {n : Nat}
    (h : longestOperator rules cs = some n) : n ≤ cs.length := by
  have hmem := List.max?_mem h
  simp only [List.mem_map, List.mem_filter, List.isPrefixOf_iff_prefix] at hmem
  obtain ⟨op, ⟨-, hprefix⟩, rfl⟩ := hmem
  exact hprefix.length_le

theorem operatorToken_length_le {rules : Rules} {modes : List Mode} {c : Char} {cs : List Char}
    {piece : Cut} (h : operatorToken rules modes c cs = .ok piece) :
    piece.length ≤ cs.length + 1 := by
  unfold operatorToken at h
  split at h
  · cases h
  · next hop =>
    cases h
    exact length_le_of_longestOperator hop
  · split at h
    · cases h
      simp [Cut.single]
    · split at h <;> cases h <;> simp [Cut.single]

section StringToken

variable {rules : Rules} {raw : Bool} {outer : List Mode} {before : Nat} {cs : List Char}

theorem stringToken_of_closed (h : (stringText rules raw cs).stop = .closed) :
    stringToken rules raw outer before cs =
      some ⟨.stringLiteral, before + (stringText rules raw cs).length, outer,
        Nat.add_pos_right before (stringText_length_pos h)⟩ := by
  simp only [stringToken]
  split
  · rfl
  · simp_all
  · simp_all

theorem stringToken_of_unterminated (h : (stringText rules raw cs).stop = .unterminated) :
    stringToken rules raw outer before cs =
      if hp : 0 < before + (stringText rules raw cs).length then
        some ⟨.stringLiteral, before + (stringText rules raw cs).length, outer, hp⟩
      else none := by
  simp only [stringToken]
  split
  · simp_all
  · rfl
  · simp_all

/-- Before a template entry there is string text, or nothing, and then the entry is read. -/
theorem stringToken_of_template (h : (stringText rules raw cs).stop = .template) :
    stringToken rules raw outer before cs =
      if hp : 0 < before + (stringText rules raw cs).length then
        some ⟨.stringLiteral, before + (stringText rules raw cs).length, .string raw :: outer, hp⟩
      else if cs.tail.head? == some '{' then
        some ⟨.templateEntry, 2, .template 0 :: .string raw :: outer, Nat.two_pos⟩
      else
        some
          { kind := .templateEntry
            length := 1 + countWhile
              (fun c => Unicode.isAlphabetic c || Unicode.isNumeric c || c == '_') cs.tail
            modes := .string raw :: outer
            length_pos := Nat.add_pos_left Nat.one_pos _ } := by
  simp only [stringToken]
  split
  · simp_all
  · simp_all
  · rfl

end StringToken

theorem stringToken_length_le {rules : Rules} {raw : Bool} {outer : List Mode} {before : Nat}
    {cs : List Char} {piece : Cut} (h : stringToken rules raw outer before cs = some piece) :
    piece.length ≤ before + cs.length := by
  have hle := stringText_length_le rules raw cs
  simp only [stringToken] at h
  split at h
  · cases h
    simp only
    omega
  · split at h <;> cases h
    simp only
    omega
  · next hstop =>
    have hlt := stringText_length_lt hstop
    split at h
    · cases h
      simp only
      omega
    · split at h
      · next hbrace =>
        have htail : cs.tail ≠ [] := by
          intro hnil
          simp [hnil] at hbrace
        have hpos := List.length_pos_iff.mpr htail
        rw [List.length_tail] at hpos
        cases h
        simp only
        omega
      · cases h
        have := countWhile_le (fun c => Unicode.isAlphabetic c || Unicode.isNumeric c || c == '_')
          cs.tail
        rw [List.length_tail] at this
        simp only
        omega

theorem openString_length_le (rules : Rules) (modes : List Mode) (cs : List Char) :
    (openString rules modes cs).length ≤ cs.length + 1 := by
  unfold openString
  split
  · next hraw =>
    simp only [Bool.and_eq_true, List.isPrefixOf_iff_prefix] at hraw
    have h₂ : 2 ≤ cs.length := hraw.2.length_le
    cases h : stringToken rules true modes 3 (cs.drop 2) with
    | none =>
      simp only [Option.getD_none]
      omega
    | some piece =>
      have := stringToken_length_le h
      rw [List.length_drop] at this
      simp only [Option.getD_some]
      omega
  · cases h : stringToken rules false modes 1 cs with
    | none => simp [Cut.single]
    | some piece =>
      have := stringToken_length_le h
      simp only [Option.getD_some]
      omega

theorem openBrace_length (modes : List Mode) : (openBrace modes).length = 1 := by
  unfold openBrace
  split <;> rfl

theorem closeBrace_length (modes : List Mode) : (closeBrace modes).length = 1 := by
  unfold closeBrace
  split <;> rfl

/-- One branch of a choice between cuts: what holds of the cut that the branch makes, and of all
that the other branches make, holds of them all. -/
theorem forall_cut_of_ite {p : Prop} [Decidable p] {first : Cut} {rest : Option Cut}
    {P : Cut → Prop} (hfirst : p → P first) (hrest : ∀ piece, rest = some piece → P piece) :
    ∀ piece, (if p then some first else rest) = some piece → P piece := by
  intro piece h
  by_cases hp : p
  · rw [if_pos hp] at h
    cases h
    exact hfirst hp
  · rw [if_neg hp] at h
    exact hrest piece h

theorem plainToken?_length_le (rules : Rules) (atStart : Bool) (modes : List Mode) (c : Char)
    (cs : List Char) :
    ∀ piece, plainToken? rules atStart modes c cs = some piece → piece.length ≤ cs.length + 1 := by
  -- every kind of token is the first character and what one reader makes of the rest
  have hcount (p : Char → Bool) : 1 + countWhile p cs ≤ cs.length + 1 := by
    have := countWhile_le p cs
    omega
  have hchar := charLiteralLength_le cs
  have hbacktick := backtickLength_le cs
  have hnumber := Number.scan_le c cs
  unfold plainToken?
  refine forall_cut_of_ite (fun _ => hcount _) ?_
  refine forall_cut_of_ite (fun _ => hcount _) ?_
  refine forall_cut_of_ite (fun _ => hcount _) ?_
  refine forall_cut_of_ite (fun hstar => ?_) ?_
  · have hle := blockCommentLength_le rules.nestedComments 1 cs.tail
    have hne : cs ≠ [] := by
      rintro rfl
      simp at hstar
    have hpos := List.length_pos_iff.mpr hne
    rw [List.length_tail] at hle
    simp only
    omega
  refine forall_cut_of_ite (fun _ => openString_length_le rules modes cs) ?_
  refine forall_cut_of_ite (fun _ => by simp only; omega) ?_
  refine forall_cut_of_ite (fun _ => by simp only; omega) ?_
  refine forall_cut_of_ite (fun _ => by simp only; omega) ?_
  refine forall_cut_of_ite (fun _ => hcount _) ?_
  refine forall_cut_of_ite (fun _ => by simp [openBrace_length]) ?_
  refine forall_cut_of_ite (fun _ => by simp [closeBrace_length]) ?_
  intro piece h
  obtain ⟨kind, -, rfl⟩ := Option.map_eq_some_iff.mp h
  simp [Cut.single]

theorem codeToken_length_le {rules : Rules} {atStart : Bool} {modes : List Mode} {c : Char}
    {cs : List Char} {piece : Cut} (h : codeToken rules atStart modes c cs = .ok piece) :
    piece.length ≤ cs.length + 1 := by
  unfold codeToken at h
  split at h
  · next hplain =>
    cases h
    exact plainToken?_length_le _ _ _ _ _ _ hplain
  · exact operatorToken_length_le h

namespace Lexer

/-- A cut lies inside the text. -/
theorem cut_length_le {rules : Rules} {lexer : Lexer} {c : Char} {cs : List Char} {piece : Cut}
    (h : lexer.cut rules c cs = .ok piece) : piece.length ≤ (c :: cs).length := by
  unfold cut at h
  split at h
  · split at h
    · next hstring =>
      cases h
      simpa using stringToken_length_le hstring
    · exact codeToken_length_le h
  · exact codeToken_length_le h

/-- One step of the lexer: it takes a token off the front of the text, and stands after it. -/
theorem next_eq_some {rules : Rules} {lexer after : Lexer} {token : Token}
    (h : lexer.next rules = .ok (some (token, after))) :
    token.start = lexer.offset ∧ token.text ≠ [] ∧ lexer.rest = token.text ++ after.rest ∧
      after.offset = token.stop := by
  unfold next at h
  split at h
  · cases h
  · next c cs hrest =>
    split at h
    · cases h
    · next piece hcut =>
      cases h
      have hpos := piece.length_pos
      have hle := cut_length_le hcut
      have hlength : ((c :: cs).take piece.length).length = piece.length := by
        rw [List.length_take]
        omega
      refine ⟨rfl, ?_, ?_, ?_⟩
      · apply List.ne_nil_of_length_pos
        rw [hlength]
        exact hpos
      · rw [hrest, List.take_append_drop]
      · rw [Token.stop, hlength]

theorem next_eq_none {rules : Rules} {lexer : Lexer} (h : lexer.next rules = .ok none) :
    lexer.rest = [] := by
  unfold next at h
  split at h
  · next hrest => exact hrest
  · split at h <;> cases h

/-- The tokens after a step. -/
theorem tokens_of_next {rules : Rules} {lexer after : Lexer} {token : Token}
    (h : lexer.next rules = .ok (some (token, after))) :
    lexer.tokens rules = (after.tokens rules).map (token :: ·) := by
  rw [tokens]
  split
  · simp_all
  · simp_all
  · next token' after' h' =>
    rw [h] at h'
    cases h'
    cases after.tokens rules <;> rfl

theorem exists_next_of_tokens {rules : Rules} {lexer : Lexer} {token : Token} {ts : List Token}
    (h : lexer.tokens rules = .ok (token :: ts)) :
    ∃ after, lexer.next rules = .ok (some (token, after)) ∧ after.tokens rules = .ok ts := by
  rw [tokens] at h
  split at h
  · cases h
  · cases h
  · next token' after hnext =>
    split at h
    · cases h
    · next rest hrest =>
      cases h
      exact ⟨after, hnext, hrest⟩

end Lexer

/-! ## Tokens end to end -/

/-- `Tiles offset text tokens`: the tokens lie end to end from `offset` on, none of them is empty,
and together they are `text`. -/
inductive Tiles : Nat → List Char → List Token → Prop
  | nil (offset : Nat) : Tiles offset [] []
  | cons {offset : Nat} {token : Token} {rest : List Char} {tokens : List Token}
      (start : token.start = offset) (nonempty : token.text ≠ [])
      (tail : Tiles token.stop rest tokens) : Tiles offset (token.text ++ rest) (token :: tokens)

namespace Tiles

variable {offset : Nat} {text : List Char} {tokens : List Token}

theorem length_le (h : Tiles offset text tokens) : tokens.length ≤ text.length := by
  induction h with
  | nil => simp
  | cons _ nonempty _ ih =>
    have := List.length_pos_iff.mpr nonempty
    simp only [List.length_cons, List.length_append]
    omega

theorem flatMap_text (h : Tiles offset text tokens) : tokens.flatMap Token.text = text := by
  induction h with
  | nil => rfl
  | cons _ _ _ ih => rw [List.flatMap_cons, ih]

theorem start_lt_stop (h : Tiles offset text tokens) : ∀ t ∈ tokens, t.start < t.stop := by
  induction h with
  | nil => simp
  | cons _ nonempty _ ih =>
    have := List.length_pos_iff.mpr nonempty
    simp only [List.mem_cons, forall_eq_or_imp]
    exact ⟨by simp only [Token.stop]; omega, ih⟩

theorem offset_le (h : Tiles offset text tokens) : ∀ t ∈ tokens, offset ≤ t.start := by
  induction h with
  | nil => simp
  | @cons offset token rest tokens start _ _ ih =>
    intro t ht
    rcases List.mem_cons.mp ht with rfl | ht
    · omega
    · have := ih t ht
      rw [Token.stop] at this
      omega

theorem start_of_head? (h : Tiles offset text tokens) : ∀ t ∈ tokens.head?, t.start = offset := by
  cases h with
  | nil => simp
  | cons start => simpa using start

theorem isChain (h : Tiles offset text tokens) :
    tokens.IsChain fun t u => u.start = t.stop := by
  induction h with
  | nil => exact .nil
  | cons _ _ tail ih => exact List.isChain_cons.mpr ⟨tail.start_of_head?, ih⟩

theorem stop_of_getLast? (h : Tiles offset text tokens) :
    ∀ t ∈ tokens.getLast?, t.stop = offset + text.length := by
  induction h with
  | nil => simp
  | @cons offset token rest tokens start _ tail ih =>
    intro t ht
    cases tokens with
    | nil =>
      obtain rfl : token = t := by simpa using ht
      obtain rfl : [] = rest := tail.flatMap_text
      rw [Token.stop, start, List.append_nil]
    | cons u us =>
      rw [List.getLast?_cons_cons] at ht
      rw [ih t ht, Token.stop, start, List.length_append]
      omega

end Tiles

/-- The tokens from any point of a text on lie end to end up to its end. -/
theorem Lexer.tiles_of_tokens {rules : Rules} {lexer : Lexer} {ts : List Token}
    (h : lexer.tokens rules = .ok ts) : Tiles lexer.offset lexer.rest ts := by
  fun_induction Lexer.tokens rules lexer generalizing ts with
  | case1 => cases h
  | case2 lexer hnext =>
    cases h
    rw [next_eq_none hnext]
    exact .nil _
  | case3 => cases h
  | case4 lexer token after hnext rest hrest ih =>
    cases h
    obtain ⟨hstart, hne, htext, hstop⟩ := next_eq_some hnext
    rw [htext]
    exact .cons hstart hne (hstop ▸ ih hrest)

theorem tiles_tokens {rules : Rules} (productive : rules.Productive) (text : List Char) :
    Tiles 0 text (tokens rules text) := by
  have h : (Lexer.start text).tokens rules = .ok (tokens rules text) := lex_eq_ok productive text
  exact Lexer.tiles_of_tokens h

/-- **The tokens cover the text**: with productive rules every text is read to its end, in at most
as many tokens as it has characters. They start at its beginning, lie end to end, are not empty,
stop at its end, and their texts are the text. -/
theorem lex_covers {rules : Rules} (productive : rules.Productive) (text : List Char) :
    ∃ ts, lex rules text = .ok ts ∧ ts.length ≤ text.length ∧
      (∀ t ∈ ts.head?, t.start = 0) ∧ ts.IsChain (fun t u => u.start = t.stop) ∧
      (∀ t ∈ ts, t.start < t.stop ∧ t.stop - t.start = t.text.length) ∧
      (∀ t ∈ ts.getLast?, t.stop = text.length) ∧ ts.flatMap Token.text = text := by
  have tiles := tiles_tokens productive text
  refine ⟨tokens rules text, lex_eq_ok productive text, tiles.length_le, tiles.start_of_head?,
    tiles.isChain, fun t ht => ⟨tiles.start_lt_stop t ht, ?_⟩, ?_, tiles.flatMap_text⟩
  · simp [Token.stop]
  · simpa using tiles.stop_of_getLast?

/-- A template expression that is open when the line of its string ends. -/
theorem lex_covers_open_template :
    Rules.kotlin.Productive ∧
      ∃ ts, lex .kotlin ['"', 'a', '$', '{', '"', '\n', '}'] = .ok ts ∧ ts.length ≤ 7 ∧
        (∀ t ∈ ts.head?, t.start = 0) ∧ ts.IsChain (fun t u => u.start = t.stop) ∧
        (∀ t ∈ ts, t.start < t.stop ∧ t.stop - t.start = t.text.length) ∧
        (∀ t ∈ ts.getLast?, t.stop = 7) ∧
        ts.flatMap Token.text = ['"', 'a', '$', '{', '"', '\n', '}'] :=
  ⟨Rules.productive_kotlin, lex_covers Rules.productive_kotlin _⟩

end SourceEditor

import SourceEditor.Language
import SourceEditor.Proofs.Token.Modes
import Mathlib.Data.List.TakeWhile

/-!
# Tokens that span lines

White space, block comments and raw strings may span lines, and nothing else does. An ordinary
string, a character literal or a name in backticks that lacks its closing mark ends with its line.

Each reader of the lexer stops before the end of the line (`OneLine`), and the readers are put
together as the lexer is. For strings the modes have to be followed too. A piece of string text is
told by the innermost mode to be raw or not, and it is the first token of the string, maybe many
lines before, that decided about the mode (`exists_inString`).
-/

namespace SourceEditor

/-- Whether the first `n` characters of a text are on one line. -/
def OneLine (n : Nat) (text : List Char) : Prop := '\n' ∉ text.take n

namespace OneLine

variable {n m : Nat} {c : Char} {cs : List Char}

theorem zero : OneLine 0 cs := by simp [OneLine]

theorem cons (hc : c ≠ '\n') (h : OneLine n cs) : OneLine (1 + n) (c :: cs) := by
  rw [OneLine, Nat.add_comm, List.take_succ_cons, List.mem_cons, not_or]
  exact ⟨hc.symm, h⟩

theorem cons_cons {d : Char} (hc : c ≠ '\n') (hd : d ≠ '\n') (h : OneLine n cs) :
    OneLine (2 + n) (c :: d :: cs) := by
  rw [show 2 + n = 1 + (1 + n) by omega]
  exact cons hc (cons hd h)

theorem one (hc : c ≠ '\n') : OneLine 1 (c :: cs) := cons hc zero

/-- A reader that goes on where another one stopped. -/
theorem add (hn : OneLine n cs) (hm : OneLine m (cs.drop n)) : OneLine (n + m) cs := by
  rw [OneLine, List.take_add, List.mem_append, not_or]
  exact ⟨hn, hm⟩

end OneLine

/-! ## Readers stop before the end of the line -/

namespace Number

theorem oneLine_countWhile {p : Char → Bool} (hp : p '\n' = false) (cs : List Char) :
    OneLine (countWhile p cs) cs := by
  have htake : cs.take (countWhile p cs) = cs.takeWhile p :=
    (List.prefix_iff_eq_take.mp (List.takeWhile_prefix p)).symm
  rw [OneLine, htake]
  intro hmem
  have := List.mem_takeWhile_imp hmem
  simp [hp] at this

theorem oneLine_countOne {p : Char → Bool} (hp : p '\n' = false) (cs : List Char) :
    OneLine (countOne p cs) cs := by
  cases cs with
  | nil => exact .zero
  | cons c cs =>
    rw [countOne]
    split
    · next hc =>
      apply OneLine.one
      rintro rfl
      simp [hp] at hc
    · exact .zero

theorem ne_newline_of_isDigit {c : Char} (h : c.isDigit = true) : c ≠ '\n' := by
  rintro rfl
  simp at h

theorem oneLine_fraction (cs : List Char) : OneLine (fraction cs) cs := by
  unfold fraction
  split
  · next point d cs =>
    split
    · next h =>
      simp only [Bool.and_eq_true, beq_iff_eq] at h
      rw [h.1]
      exact .cons_cons (by decide) (ne_newline_of_isDigit h.2) (oneLine_countWhile rfl cs)
    · exact .zero
  · exact .zero

theorem oneLine_exponent (cs : List Char) : OneLine (exponent cs) cs := by
  unfold exponent
  split
  · next mark cs =>
    split
    · next hmark =>
      have hmark : mark ≠ '\n' := by
        rintro rfl
        simp at hmark
      split
      · next sign ds =>
        split
        · next hsign =>
          have hsign : sign ≠ '\n' := by
            rintro rfl
            simp at hsign
          split
          · next d rest =>
            split
            · next hd =>
              rw [show 3 + countWhile isDecimal rest = 2 + (1 + countWhile isDecimal rest) by omega]
              exact .cons_cons hmark hsign
                (.cons (ne_newline_of_isDigit hd) (oneLine_countWhile rfl rest))
            · exact .zero
          · exact .zero
        · split
          · next hd =>
            exact .cons_cons hmark (ne_newline_of_isDigit hd) (oneLine_countWhile rfl ds)
          · exact .zero
      · exact .zero
    · exact .zero
  · exact .zero

/-- A mark of the base and the digits after it. -/
theorem oneLine_based {p q : Char → Bool} (hp : p '\n' = false) (hq : q '\n' = false)
    {cs : List Char} (h : cs.head?.any p = true) : OneLine (1 + countWhile q cs.tail) cs := by
  cases cs with
  | nil => simp at h
  | cons c cs =>
    refine .cons ?_ (oneLine_countWhile hq cs)
    rintro rfl
    simp [hp] at h

theorem oneLine_body (first : Char) (cs : List Char) : OneLine (body first cs).2 cs := by
  unfold body
  split
  · next h => exact oneLine_based rfl rfl (Bool.and_eq_true_iff.mp h).2
  · split
    · next h => exact oneLine_based rfl rfl (Bool.and_eq_true_iff.mp h).2
    · have frac : OneLine (if first == '.' then 0 else fraction (cs.drop (countWhile isDecimal cs)))
          (cs.drop (countWhile isDecimal cs)) := by
        split
        · exact .zero
        · exact oneLine_fraction _
      exact (((oneLine_countWhile rfl cs).add frac).add (oneLine_exponent _)).add
        (oneLine_countOne rfl _)

theorem oneLine_scan (first : Char) (cs : List Char) : OneLine (scan first cs).2 cs :=
  ((oneLine_body first cs).add (oneLine_countOne rfl _)).add (oneLine_countOne rfl _)

end Number

open Number (countWhile oneLine_countWhile oneLine_countOne oneLine_scan)

theorem oneLine_charLiteralLength (cs : List Char) : OneLine (charLiteralLength cs) cs := by
  fun_induction charLiteralLength cs with
  | case1 => exact .zero
  | case2 => exact .zero
  | case3 c hc => exact .one (by simpa using hc)
  | case4 c hc _ d ds hd ih => exact .cons_cons (by simpa using hc) (by simpa using hd) ih
  | case5 c hc => exact .one (by simpa using hc)
  | case6 c cs hc => exact .one (by simpa using hc)
  | case7 c cs hc _ _ ih => exact .cons (by simpa using hc) ih

theorem oneLine_backtickLength (cs : List Char) : OneLine (backtickLength cs) cs :=
  (oneLine_countWhile rfl cs).add (oneLine_countOne rfl _)

/-- The text of an ordinary string. -/
theorem oneLine_stringText (rules : Rules) (cs : List Char) :
    OneLine (stringText rules false cs).length cs := by
  fun_induction stringText rules false cs with
  | case1 => exact .zero
  | case2 _ _ _ hraw => simp at hraw
  | case3 _ _ _ _ hraw => simp at hraw
  | case4 c cs hquote =>
    rw [beq_iff_eq.mp hquote]
    exact .one (by decide)
  | case5 => exact .zero
  | case6 c _ hc => exact .one (by simpa using hc)
  | case7 c _ hc _ d ds hd ih => exact .cons_cons (by simpa using hc) (by simpa using hd) ih
  | case8 c _ hc => exact .one (by simpa using hc)
  | case9 => exact .zero
  | case10 c cs _ hc _ _ ih => exact .cons (by simpa using hc) ih

/-! ## Cuts -/

theorem Unicode.isAlphabetic_newline : isAlphabetic '\n' = false := by decide +kernel

theorem Unicode.isNumeric_newline : isNumeric '\n' = false := by decide +kernel

theorem Rules.isNamePart_newline (rules : Rules) : rules.isNamePart '\n' = false := by
  simp [isNamePart, Unicode.isAlphabetic_newline, Unicode.isNumeric_newline]

/-- Whether no operator spans lines. -/
def Rules.OneLineOperators (rules : Rules) : Prop := ∀ op ∈ rules.operators, '\n' ∉ op.toList

theorem Language.oneLineOperators_rules (language : Language) :
    language.rules.OneLineOperators := by
  cases language
  · change ∀ op ∈ Rules.java.operators, '\n' ∉ op.toList
    decide
  · change ∀ op ∈ Rules.kotlin.operators, '\n' ∉ op.toList
    decide

/-- The kinds of tokens that may span lines, strings apart. -/
def TokenKind.spansLines : TokenKind → Bool
  | .whitespace | .blockComment | .docComment => true
  | _ => false

/-- Whether a token that is read in code may span lines. -/
def Token.MaySpan (rules : Rules) (t : Token) : Prop :=
  t.kind.spansLines = true ∨ (t.kind = .stringLiteral ∧ t.opensRaw rules = true)

/-- A piece of string text, or the template entry that follows it, after some characters of the
string that are already read. -/
theorem oneLine_stringToken {rules : Rules} {raw : Bool} {outer : List Mode} {front cs : List Char}
    {piece : Cut} (hfront : '\n' ∉ front)
    (h : stringToken rules raw outer front.length cs = some piece) :
    (raw = true ∧ piece.kind = .stringLiteral) ∨ OneLine piece.length (front ++ cs) := by
  obtain ⟨hkind, hlength, -⟩ | ⟨hzero, -, ⟨rest, rfl, hlength, -⟩ | ⟨rest, rfl, -, hlength, -⟩⟩ :=
    stringToken_cases h
  · cases raw with
    | true => exact .inl ⟨rfl, hkind⟩
    | false =>
      right
      rw [hlength]
      refine .add ?_ ?_
      · simpa [OneLine] using hfront
      · simpa using oneLine_stringText rules cs
  · rw [List.length_eq_zero_iff.mp hzero, hlength]
    exact .inr (.cons_cons (by decide) (by decide) .zero)
  · rw [List.length_eq_zero_iff.mp hzero, hlength]
    refine .inr (.cons (by decide) (oneLine_countWhile ?_ rest))
    simp [Unicode.isAlphabetic_newline, Unicode.isNumeric_newline]

/-- The first token of an ordinary string. -/
theorem oneLine_openString (rules : Rules) (modes : List Mode) (cs : List Char) :
    (rules.rawStrings && ['"', '"'].isPrefixOf cs) = true ∨
      OneLine (openString rules modes cs).length ('"' :: cs) := by
  unfold openString
  split
  · next hraw => exact .inl hraw
  · right
    cases h : stringToken rules false modes 1 cs with
    | none => exact .one (by decide)
    | some piece =>
      have h' : stringToken rules false modes ['"'].length cs = some piece := h
      simpa using oneLine_stringToken (by decide) h'

theorem oneLine_operator {rules : Rules} (operators : rules.OneLineOperators) {text : List Char}
    {n : Nat} (h : longestOperator rules text = some n) : OneLine n text := by
  have hmem := List.max?_mem h
  simp only [List.mem_map, List.mem_filter, List.isPrefixOf_iff_prefix] at hmem
  obtain ⟨_, ⟨⟨op, hop, rfl⟩, hprefix⟩, rfl⟩ := hmem
  rw [OneLine, ← List.prefix_iff_eq_take.mp hprefix]
  exact operators op hop

section CodeCuts

variable {rules : Rules} {modes : List Mode} {c : Char} {cs : List Char} {piece : Cut}

theorem oneLine_operatorToken (operators : rules.OneLineOperators) (hc : c ≠ '\n')
    (h : operatorToken rules modes c cs = .ok piece) : OneLine piece.length (c :: cs) := by
  unfold operatorToken at h
  split at h
  · cases h
  · next hop =>
    cases h
    exact oneLine_operator operators hop
  · split at h
    · cases h
      exact .one hc
    · split at h <;> cases h <;> exact .one hc

theorem oneLine_plainToken? (hc : c ≠ '\n') (atStart : Bool) (start : Nat) :
    ∀ piece, plainToken? rules atStart modes c cs = some piece →
      (piece.token start (c :: cs)).MaySpan rules ∨ OneLine piece.length (c :: cs) := by
  have hcount {p : Char → Bool} (hp : p '\n' = false) : OneLine (1 + countWhile p cs) (c :: cs) :=
    .cons hc (oneLine_countWhile hp cs)
  have hone {n : Nat} (hn : n = 1) : OneLine n (c :: cs) := hn ▸ .one hc
  unfold plainToken?
  refine forall_cut_of_ite (fun _ => .inl (.inl rfl)) ?_
  refine forall_cut_of_ite (fun _ => .inr (hcount rfl)) ?_
  refine forall_cut_of_ite (fun _ => .inr (hcount rfl)) ?_
  refine forall_cut_of_ite (fun _ => .inl (.inl ?_)) ?_
  · change (blockCommentKind cs.tail).spansLines = true
    rcases blockCommentKind_cases cs.tail with hkind | hkind <;> rw [hkind] <;> rfl
  refine forall_cut_of_ite (fun hquote => ?_) ?_
  · rw [beq_iff_eq.mp hquote]
    refine (oneLine_openString rules modes cs).imp_left fun hraw => .inr ⟨?_, ?_⟩
    · exact (openString_cases rules modes cs).1
    · rw [opensRaw_openString, hraw]
  refine forall_cut_of_ite (fun _ => .inr (.cons hc (oneLine_charLiteralLength cs))) ?_
  refine forall_cut_of_ite (fun _ => .inr (.cons hc (oneLine_backtickLength cs))) ?_
  refine forall_cut_of_ite (fun _ => .inr (.cons hc (oneLine_scan c cs))) ?_
  refine forall_cut_of_ite (fun _ => .inr (hcount rules.isNamePart_newline)) ?_
  refine forall_cut_of_ite (fun _ => .inr (hone (openBrace_length modes))) ?_
  refine forall_cut_of_ite (fun _ => .inr (hone (closeBrace_length modes))) ?_
  intro piece h
  obtain ⟨kind, -, rfl⟩ := Option.map_eq_some_iff.mp h
  exact .inr (hone rfl)

/-- A token in code that spans lines is white space, a block comment or a raw string. -/
theorem oneLine_codeToken (operators : rules.OneLineOperators) {atStart : Bool} (start : Nat)
    (h : codeToken rules atStart modes c cs = .ok piece) :
    (piece.token start (c :: cs)).MaySpan rules ∨ OneLine piece.length (c :: cs) := by
  by_cases hc : c = '\n'
  · subst hc
    obtain ⟨hkind, -⟩ := codeToken_newline h
    exact .inl (.inl (by rw [Cut.token, hkind]; rfl))
  · unfold codeToken at h
    split at h
    · next hplain =>
      cases h
      exact oneLine_plainToken? hc atStart start _ hplain
    · exact .inr (oneLine_operatorToken operators hc h)

end CodeCuts

/-! ## One step -/

namespace Lexer

variable {rules : Rules} {lexer after : Lexer} {t : Token}

/-- A token that spans lines is white space or a block comment, or it opens a raw string, or it is
read inside of one. -/
theorem spans_of_next (operators : rules.OneLineOperators)
    (h : lexer.next rules = .ok (some (t, after))) (newline : '\n' ∈ t.text) :
    t.kind.spansLines = true ∨
      (t.kind = .stringLiteral ∧
        ((InCode lexer.modes ∧ t.opensRaw rules = true) ∨
          ∃ outer, lexer.modes = .string true :: outer)) := by
  obtain ⟨c, cs, piece, -, hcut, rfl, -⟩ := exists_cut_of_next h
  have hspans {p : Prop} (hp : p ∨ OneLine piece.length (c :: cs)) : p :=
    hp.resolve_right (not_not_intro newline)
  unfold cut at hcut
  split at hcut
  · next raw outer hstack =>
    split at hcut
    · next hstring =>
      cases hcut
      have hfront : stringToken rules raw outer ([] : List Char).length (c :: cs) = some piece :=
        hstring
      obtain ⟨rfl, hkind⟩ := hspans (oneLine_stringToken (by simp) hfront)
      exact .inr ⟨hkind, .inr ⟨outer, hstack⟩⟩
    · next hnone =>
      obtain ⟨rfl, -⟩ := eq_newline_of_stringToken_eq_none hnone
      left
      rw [Cut.token, (codeToken_newline hcut).1]
      rfl
  · next hcode =>
    rcases hspans (oneLine_codeToken operators lexer.offset hcut) with hkind | ⟨hkind, hraw⟩
    · exact .inl hkind
    · exact .inr ⟨hkind, .inl ⟨hcode, hraw⟩⟩

/-! ## The strings that a text is in -/

/-- `InString rules raw lexer ts after`: the first of the tokens `ts` opens a string, and the others
are read inside of it. -/
inductive InString (rules : Rules) (raw : Bool) : Lexer → List Token → Lexer → Prop
  | first {lexer after : Lexer} {t : Token} (next : lexer.next rules = .ok (some (t, after)))
      (kind : t.kind = .stringLiteral) (opens : t.opensRaw rules = raw)
      (modes : after.modes = .string raw :: lexer.modes) : InString rules raw lexer [t] after
  | concat {lexer middle after : Lexer} {ts : List Token} {t : Token}
      (inside : InString rules raw lexer ts middle)
      (next : middle.next rules = .ok (some (t, after)))
      (stays : .string raw :: lexer.modes <:+ after.modes) :
      InString rules raw lexer (ts ++ [t]) after

end Lexer

/-- A string that the lexer is in after a token was open before it, or the token opens it. -/
theorem ModeStep.string_suffix {rules : Rules} {modes after outer : List Mode} {t : Token}
    {raw : Bool} (step : ModeStep rules modes t after) (h : .string raw :: outer <:+ after) :
    .string raw :: outer <:+ modes ∨
      (modes = outer ∧ after = .string raw :: outer ∧ t.kind = .stringLiteral ∧
        t.opensRaw rules = raw) := by
  cases step with
  | code => exact .inl h
  | openString code kind =>
    rcases List.suffix_cons_iff.mp h with heq | hsuffix
    · cases heq
      exact .inr ⟨rfl, rfl, kind, rfl⟩
    · exact .inl hsuffix
  | stringText => exact .inl h
  | closeString => exact .inl (h.trans (List.suffix_cons _ _))
  | endLine => exact .inl (h.trans (List.suffix_cons _ _))
  | openTemplate =>
    rcases List.suffix_cons_iff.mp h with heq | hsuffix
    · cases heq
    · exact .inl hsuffix
  | closeTemplate => exact .inl (h.trans (List.suffix_cons _ _))
  | openBrace =>
    rcases List.suffix_cons_iff.mp h with heq | hsuffix
    · cases heq
    · exact .inl (hsuffix.trans (List.suffix_cons _ _))
  | closeBrace =>
    rcases List.suffix_cons_iff.mp h with heq | hsuffix
    · cases heq
    · exact .inl (hsuffix.trans (List.suffix_cons _ _))
  | looseBrace => exact .inl h

namespace Lexer

variable {rules : Rules}

/-- Each string that the lexer is in has a first token, and what is read since is inside of it. -/
theorem exists_inString {text : List Char} {ts : List Token} {lexer : Lexer}
    (h : Reads rules (start text) ts lexer) {raw : Bool} {outer : List Mode}
    (hmodes : .string raw :: outer <:+ lexer.modes) :
    ∃ front inside opener, ts = front ++ inside ∧ Reads rules (start text) front opener ∧
      opener.modes = outer ∧ InString rules raw opener inside lexer := by
  induction h with
  | nil => simp [start] at hmodes
  | @concat middle after ts t reads hnext ih =>
    rcases (modeStep_of_next hnext).string_suffix hmodes with hbefore | ⟨rfl, hafter, hkind, hraw⟩
    · obtain ⟨front, inside, opener, rfl, hfront, rfl, hinside⟩ := ih hbefore
      exact ⟨front, inside ++ [t], opener, List.append_assoc .., hfront, rfl,
        hinside.concat hnext hmodes⟩
    · exact ⟨ts, [t], middle, rfl, reads, rfl, .first hnext hkind hraw hafter⟩

end Lexer

/-- `PartOfString rules text raw ts t`: the token `t`, read after `ts`, is part of the text of a
string. It is the first token of the string, or it is read where the string is innermost. -/
inductive PartOfString (rules : Rules) (text : List Char) : Bool → List Token → Token → Prop
  | first {ts : List Token} {t : Token} {lexer after : Lexer}
      (reads : Lexer.Reads rules (.start text) ts lexer)
      (next : lexer.next rules = .ok (some (t, after))) (code : InCode lexer.modes)
      (kind : t.kind = .stringLiteral) : PartOfString rules text (t.opensRaw rules) ts t
  | later {raw : Bool} {front inside : List Token} {t : Token} {opener lexer after : Lexer}
      (reads : Lexer.Reads rules (.start text) front opener)
      (string : Lexer.InString rules raw opener inside lexer)
      (next : lexer.next rules = .ok (some (t, after)))
      (innermost : lexer.modes = .string raw :: opener.modes) (kind : t.kind = .stringLiteral) :
      PartOfString rules text raw (front ++ inside) t

section PartOfString

variable {rules : Rules} {text : List Char} {ts : List Token} {t : Token} {lexer after : Lexer}

theorem partOfString_of_string {raw : Bool} {outer : List Mode}
    (reads : Lexer.Reads rules (.start text) ts lexer)
    (next : lexer.next rules = .ok (some (t, after))) (hmodes : lexer.modes = .string raw :: outer)
    (kind : t.kind = .stringLiteral) : PartOfString rules text raw ts t := by
  have hsuffix : .string raw :: outer <:+ lexer.modes := hmodes ▸ List.suffix_refl _
  obtain ⟨front, inside, opener, rfl, hfront, rfl, hinside⟩ := Lexer.exists_inString reads hsuffix
  exact .later hfront hinside next hmodes kind

/-- Every string literal is part of a string. -/
theorem exists_partOfString (reads : Lexer.Reads rules (.start text) ts lexer)
    (next : lexer.next rules = .ok (some (t, after))) (kind : t.kind = .stringLiteral) :
    ∃ raw, PartOfString rules text raw ts t := by
  by_cases code : InCode lexer.modes
  · exact ⟨_, .first reads next code kind⟩
  · simp only [InCode, ne_eq, not_forall, not_not] at code
    obtain ⟨raw, outer, hmodes⟩ := code
    exact ⟨raw, partOfString_of_string reads next hmodes kind⟩

/-- No part of an ordinary string spans lines. -/
theorem newline_notMem_of_partOfString (operators : rules.OneLineOperators)
    (h : PartOfString rules text false ts t) : '\n' ∉ t.text := by
  intro newline
  generalize hordinary : false = raw at h
  cases h with
  | first reads next code kind =>
    rcases Lexer.spans_of_next operators next newline with hkind | ⟨-, ⟨-, hraw⟩ | ⟨outer, hmodes⟩⟩
    · simp [kind, TokenKind.spansLines] at hkind
    · simp [hraw] at hordinary
    · exact code _ _ hmodes
  | later reads string next innermost kind =>
    rcases Lexer.spans_of_next operators next newline with hkind | ⟨-, ⟨hcode, -⟩ | ⟨outer, hmodes⟩⟩
    · simp [kind, TokenKind.spansLines] at hkind
    · exact hcode _ _ innermost
    · rw [innermost] at hmodes
      cases hmodes
      cases hordinary

end PartOfString

/-- **Nothing but white space, block comments and raw strings spans lines**: a token with a line end
is one of these, where a string is raw if the first of its tokens starts with three quotes. Every
string literal is part of a raw or of an ordinary string, and no part of an ordinary string has a
line end, whatever the templates in the string span. -/
theorem newline_token (language : Language) (text : List Char) (ts us : List Token) (t : Token)
    (h : language.tokens text = ts ++ t :: us) :
    ('\n' ∈ t.text →
      t.kind = .whitespace ∨ t.kind = .blockComment ∨ t.kind = .docComment ∨
        (t.kind = .stringLiteral ∧ PartOfString language.rules text true ts t)) ∧
      (t.kind = .stringLiteral → ∃ raw, PartOfString language.rules text raw ts t) ∧
      (PartOfString language.rules text false ts t → '\n' ∉ t.text) := by
  obtain ⟨lexer, reads, hrest⟩ := Lexer.exists_reads language.productive_rules h
  obtain ⟨after, next, -⟩ := Lexer.exists_next_of_tokens hrest
  have operators := language.oneLineOperators_rules
  refine ⟨fun newline => ?_, exists_partOfString reads next,
    newline_notMem_of_partOfString operators⟩
  rcases Lexer.spans_of_next operators next newline with
    hkind | ⟨hkind, ⟨code, hraw⟩ | ⟨outer, hmodes⟩⟩
  · cases hk : t.kind <;> simp_all [TokenKind.spansLines]
  · have hpart : PartOfString language.rules text (t.opensRaw language.rules) ts t :=
      .first reads next code hkind
    rw [hraw] at hpart
    exact .inr (.inr (.inr ⟨hkind, hpart⟩))
  · exact .inr (.inr (.inr ⟨hkind, partOfString_of_string reads next hmodes hkind⟩))

/-- A raw string that goes on after a template expression, in which an ordinary string lacks its
closing quote. -/
theorem newline_token_after_template :
    let text := ['"', '"', '"', '$', '{', '"', 'b', '\n', '}', '\n', '"', '"', '"']
    let ts : List Token :=
      [⟨.stringLiteral, 0, ['"', '"', '"']⟩, ⟨.templateEntry, 3, ['$', '{']⟩,
       ⟨.stringLiteral, 5, ['"', 'b']⟩, ⟨.whitespace, 7, ['\n']⟩, ⟨.templateEntry, 8, ['}']⟩]
    let t : Token := ⟨.stringLiteral, 9, ['\n', '"', '"', '"']⟩
    Language.kotlin.tokens text = ts ++ [t] ∧ PartOfString .kotlin text true ts t := by
  intro text ts t
  have htokens : Language.kotlin.tokens text = ts ++ [t] := by decide +kernel
  have hspans := (newline_token .kotlin text ts [] t htokens).1 (by decide)
  refine ⟨htokens, ?_⟩
  rcases hspans with hkind | hkind | hkind | ⟨-, hpart⟩
  · cases hkind
  · cases hkind
  · cases hkind
  · exact hpart

end SourceEditor

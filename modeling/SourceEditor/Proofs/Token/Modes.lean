import SourceEditor.Proofs.Syntax.Balance

/-!
# The modes of the lexer nest like brackets

The lexer remembers what it is inside of as a stack of modes: a string, a template expression in the
string, a string in the expression, and so on. `ModeStep` says all that one token can do to the
stack. A string is opened and left, a template expression is opened in a string and closed again,
and the braces inside of an expression are counted.

What holds of the tokens read so far is read off these steps (`Nested`). The modes alternate, as
many template expressions are open as have been opened and not closed, and the tokens can be cut at
the braces that are still open, with balanced words between the cuts (`Opens`). When a closing brace
comes, the last of these cuts is its partner.
-/

namespace SourceEditor

/-! ## Braces -/

/-- The brace that a token is, if it is one: a brace of code, or one of the two ends of a template
expression. -/
def Token.brace? (t : Token) : Option Bracket :=
  t.bracket?.filter fun b =>
    b == .opening .braces || b == .closing .braces || b == .opening .template ||
      b == .closing .template

/-- Whether tokens of a kind can be braces. -/
def TokenKind.mayBrace : TokenKind → Bool
  | .leftBrace | .rightBrace | .templateEntry => true
  | _ => false

namespace Token

variable {t : Token}

theorem brace?_of_kind (h : t.kind.mayBrace = false) : t.brace? = none := by
  unfold brace? bracket?
  split <;> simp_all [TokenKind.mayBrace]

theorem brace?_leftBrace (h : t.kind = .leftBrace) : t.brace? = some (.opening .braces) := by
  simp [brace?, bracket?, h]

theorem brace?_rightBrace (h : t.kind = .rightBrace) : t.brace? = some (.closing .braces) := by
  simp [brace?, bracket?, h]

theorem brace?_templateEntry (h : t.kind = .templateEntry) :
    t.brace? =
      if t.text = ['$', '{'] then some (.opening .template)
      else if t.text = ['}'] then some (.closing .template)
      else none := by
  simp only [brace?, bracket?, h]
  split
  · rfl
  · split <;> rfl

end Token

/-! ## What a token does to the modes -/

/-- Whether the lexer is outside of string text, in code or in the expression of a template. -/
def InCode (modes : List Mode) : Prop := ∀ raw outer, modes ≠ .string raw :: outer

/-- Whether a token that opens a string opens a raw one. -/
def Token.opensRaw (rules : Rules) (t : Token) : Bool :=
  rules.rawStrings && ['"', '"', '"'].isPrefixOf t.text

/-- `ModeStep rules modes t after`: the token `t`, read inside of `modes`, leaves `after`. -/
inductive ModeStep (rules : Rules) : List Mode → Token → List Mode → Prop
  /-- Code other than braces, and a string that ends in its first token. -/
  | code {modes : List Mode} {t : Token} (code : InCode modes) (plain : t.brace? = none) :
      ModeStep rules modes t modes
  | openString {modes : List Mode} {t : Token} (code : InCode modes)
      (kind : t.kind = .stringLiteral) :
      ModeStep rules modes t (.string (t.opensRaw rules) :: modes)
  /-- String text before a template entry, and the entry of a name. -/
  | stringText {raw : Bool} {outer : List Mode} {t : Token} (plain : t.brace? = none) :
      ModeStep rules (.string raw :: outer) t (.string raw :: outer)
  /-- String text up to the end of the string, with or without its closing quote. -/
  | closeString {raw : Bool} {outer : List Mode} {t : Token} (kind : t.kind = .stringLiteral) :
      ModeStep rules (.string raw :: outer) t outer
  /-- An ordinary string that the end of its line ends, with no text left to read. -/
  | endLine {outer : List Mode} {t : Token} (kind : t.kind = .whitespace) :
      ModeStep rules (.string false :: outer) t outer
  | openTemplate {raw : Bool} {outer : List Mode} {t : Token}
      (brace : t.brace? = some (.opening .template)) :
      ModeStep rules (.string raw :: outer) t (.template 0 :: .string raw :: outer)
  | closeTemplate {outer : List Mode} {t : Token} (brace : t.brace? = some (.closing .template)) :
      ModeStep rules (.template 0 :: outer) t outer
  | openBrace {depth : Nat} {outer : List Mode} {t : Token}
      (brace : t.brace? = some (.opening .braces)) :
      ModeStep rules (.template depth :: outer) t (.template (depth + 1) :: outer)
  | closeBrace {depth : Nat} {outer : List Mode} {t : Token}
      (brace : t.brace? = some (.closing .braces)) :
      ModeStep rules (.template (depth + 1) :: outer) t (.template depth :: outer)
  /-- Nothing counts the braces outside of all templates. -/
  | looseBrace {t : Token} (kind : t.kind = .leftBrace ∨ t.kind = .rightBrace) :
      ModeStep rules [] t []

/-- The token that a cut takes off a text. -/
def Cut.token (piece : Cut) (start : Nat) (text : List Char) : Token :=
  ⟨piece.kind, start, text.take piece.length⟩

section StringSteps

variable {rules : Rules} {raw : Bool} {outer : List Mode}

/-- Where there is no text before a template entry, the entry is next. -/
theorem eq_cons_of_stringText_template {text : List Char}
    (stop : (stringText rules raw text).stop = .template)
    (length : (stringText rules raw text).length = 0) : text = '$' :: text.tail := by
  unfold stringText at stop length
  grind [StringText.after]

/-- Where a string ends with nothing read, the end of its line is next. -/
theorem eq_newline_of_stringText_unterminated {c : Char} {cs : List Char}
    (stop : (stringText rules raw (c :: cs)).stop = .unterminated)
    (length : (stringText rules raw (c :: cs)).length = 0) : c = '\n' ∧ raw = false := by
  unfold stringText at stop length
  grind [StringText.after]

theorem eq_newline_of_stringToken_eq_none {c : Char} {cs : List Char}
    (h : stringToken rules raw outer 0 (c :: cs) = none) : c = '\n' ∧ raw = false := by
  cases hstop : (stringText rules raw (c :: cs)).stop with
  | closed => simp [stringToken_of_closed hstop] at h
  | unterminated =>
    rw [stringToken_of_unterminated hstop] at h
    split at h
    · cases h
    · exact eq_newline_of_stringText_unterminated hstop (by omega)
  | template =>
    rw [stringToken_of_template hstop] at h
    split at h
    · cases h
    · split at h <;> cases h

/-- All that a string can give: text up to its end or up to a template entry, or, with nothing read,
the entry itself. -/
theorem stringToken_cases {before : Nat} {cs : List Char} {piece : Cut}
    (h : stringToken rules raw outer before cs = some piece) :
    (piece.kind = .stringLiteral ∧ piece.length = before + (stringText rules raw cs).length ∧
      (piece.modes = outer ∨ piece.modes = .string raw :: outer)) ∨
    (before = 0 ∧ piece.kind = .templateEntry ∧
      ((∃ rest, cs = '$' :: '{' :: rest ∧ piece.length = 2 ∧
          piece.modes = .template 0 :: .string raw :: outer) ∨
        ∃ rest, cs = '$' :: rest ∧ rest.head? ≠ some '{' ∧
          piece.length = 1 + Number.countWhile
            (fun c => Unicode.isAlphabetic c || Unicode.isNumeric c || c == '_') rest ∧
          piece.modes = .string raw :: outer)) := by
  cases hstop : (stringText rules raw cs).stop with
  | closed =>
    rw [stringToken_of_closed hstop] at h
    cases h
    exact .inl ⟨rfl, rfl, .inl rfl⟩
  | unterminated =>
    rw [stringToken_of_unterminated hstop] at h
    split at h <;> cases h
    exact .inl ⟨rfl, rfl, .inl rfl⟩
  | template =>
    rw [stringToken_of_template hstop] at h
    split at h
    · cases h
      exact .inl ⟨rfl, rfl, .inr rfl⟩
    · right
      have hcons := eq_cons_of_stringText_template hstop (by omega)
      refine ⟨by omega, ?_⟩
      generalize cs.tail = rest at *
      subst hcons
      split at h
      · next hbrace =>
        cases h
        obtain ⟨more, rfl⟩ := List.head?_eq_some_iff.mp (beq_iff_eq.mp hbrace)
        exact ⟨rfl, .inl ⟨more, rfl, rfl, rfl⟩⟩
      · next hbrace =>
        cases h
        exact ⟨rfl, .inr ⟨rest, rfl, by simpa using hbrace, rfl, rfl⟩⟩

theorem modeStep_stringToken {text : List Char} {piece : Cut} (start : Nat)
    (h : stringToken rules raw outer 0 text = some piece) :
    ModeStep rules (.string raw :: outer) (piece.token start text) piece.modes := by
  obtain ⟨hkind, -, hmodes⟩ | ⟨-, hkind, ⟨rest, rfl, hlength, hmodes⟩ |
    ⟨rest, rfl, hbrace, hlength, hmodes⟩⟩ := stringToken_cases h
  · rcases hmodes with hmodes | hmodes <;> rw [hmodes]
    · exact .closeString hkind
    · exact .stringText (Token.brace?_of_kind (by rw [Cut.token, hkind]; rfl))
  · rw [hmodes]
    apply ModeStep.openTemplate
    rw [Token.brace?_templateEntry hkind, Cut.token, hlength]
    rfl
  · rw [hmodes]
    apply ModeStep.stringText
    rw [Token.brace?_templateEntry hkind, Cut.token, hlength, Nat.add_comm 1, List.take_succ_cons,
      if_neg, if_neg]
    · simp
    · intro heq
      have hopen : ['{'] <+: rest := (List.cons.inj heq).2 ▸ List.take_prefix _ _
      obtain ⟨more, rfl⟩ := hopen
      exact hbrace rfl

/-- What a token that opens a string is: a string literal, after which the string is left or goes
on, and with all three quotes if the string is raw. -/
theorem openString_cases (rules : Rules) (modes : List Mode) (cs : List Char) :
    (openString rules modes cs).kind = .stringLiteral ∧
      ((rules.rawStrings && ['"', '"'].isPrefixOf cs) = true →
        3 ≤ (openString rules modes cs).length) ∧
      ((openString rules modes cs).modes = modes ∨
        (openString rules modes cs).modes =
          .string (rules.rawStrings && ['"', '"'].isPrefixOf cs) :: modes) := by
  unfold openString
  split
  · next hraw =>
    cases h : stringToken rules true modes 3 (cs.drop 2) with
    | none => exact ⟨rfl, fun _ => le_rfl, .inl rfl⟩
    | some piece =>
      obtain ⟨hkind, hlength, hmodes⟩ | ⟨hzero, -⟩ := stringToken_cases h
      · rw [hraw, Option.getD_some]
        exact ⟨hkind, fun _ => by omega, hmodes⟩
      · cases hzero
  · next hraw =>
    cases h : stringToken rules false modes 1 cs with
    | none => exact ⟨rfl, fun h => absurd h hraw, .inl rfl⟩
    | some piece =>
      obtain ⟨hkind, -, hmodes⟩ | ⟨hzero, -⟩ := stringToken_cases h
      · rw [Bool.not_eq_true] at hraw
        rw [hraw, Option.getD_some]
        exact ⟨hkind, fun h => absurd h Bool.false_ne_true, hmodes⟩
      · cases hzero

theorem opensRaw_openString (rules : Rules) (modes : List Mode) (cs : List Char) (start : Nat) :
    ((openString rules modes cs).token start ('"' :: cs)).opensRaw rules =
      (rules.rawStrings && ['"', '"'].isPrefixOf cs) := by
  obtain ⟨-, hlength, -⟩ := openString_cases rules modes cs
  rw [Bool.eq_iff_iff]
  simp only [Token.opensRaw, Cut.token, Bool.and_eq_true, List.isPrefixOf_iff_prefix,
    List.prefix_take_iff, List.cons_prefix_cons, true_and] at hlength ⊢
  exact ⟨fun h => ⟨h.1, h.2.1⟩, fun h => ⟨h.1, h.2, hlength h⟩⟩

theorem modeStep_openString {modes : List Mode} (code : InCode modes) (cs : List Char)
    (start : Nat) :
    ModeStep rules modes ((openString rules modes cs).token start ('"' :: cs))
      (openString rules modes cs).modes := by
  obtain ⟨hkind, -, hmodes⟩ := openString_cases rules modes cs
  rcases hmodes with hmodes | hmodes <;> rw [hmodes]
  · exact .code code (Token.brace?_of_kind (by rw [Cut.token, hkind]; rfl))
  · rw [← opensRaw_openString rules modes cs start]
    exact .openString code hkind

end StringSteps

/-! ## Code -/

section CodeSteps

variable {rules : Rules} {modes : List Mode}

theorem modeStep_openBrace (code : InCode modes) (start : Nat) (text : List Char) :
    ModeStep rules modes ((openBrace modes).token start text) (openBrace modes).modes := by
  match modes with
  | [] => exact .looseBrace (.inl rfl)
  | .template _ :: _ => exact .openBrace (Token.brace?_leftBrace rfl)
  | .string raw :: outer => exact absurd rfl (code raw outer)

theorem modeStep_closeBrace (code : InCode modes) (start : Nat) (cs : List Char) :
    ModeStep rules modes ((closeBrace modes).token start ('}' :: cs)) (closeBrace modes).modes := by
  match modes with
  | [] => exact .looseBrace (.inr rfl)
  | .template 0 :: _ => exact .closeTemplate (Token.brace?_templateEntry rfl)
  | .template (_ + 1) :: _ => exact .closeBrace (Token.brace?_rightBrace rfl)
  | .string raw :: outer => exact absurd rfl (code raw outer)

theorem blockCommentKind_cases (cs : List Char) :
    blockCommentKind cs = .blockComment ∨ blockCommentKind cs = .docComment := by
  unfold blockCommentKind
  split
  · split
    · exact .inr rfl
    · exact .inl rfl
  · exact .inl rfl

theorem mayBrace_punctuation {c : Char} {kind : TokenKind} (h : punctuation c = some kind) :
    kind.mayBrace = false := by
  unfold punctuation at h
  split at h <;> cases h <;> rfl

theorem modeStep_plainToken? (code : InCode modes) (atStart : Bool) (c : Char) (cs : List Char)
    (start : Nat) :
    ∀ piece, plainToken? rules atStart modes c cs = some piece →
      ModeStep rules modes (piece.token start (c :: cs)) piece.modes := by
  -- all but strings and braces leave the modes as they are
  have plain {kind : TokenKind} {length : Nat} (hpos : 0 < length) (h : kind.mayBrace = false) :
      ModeStep rules modes ((⟨kind, length, modes, hpos⟩ : Cut).token start (c :: cs)) modes :=
    .code code (Token.brace?_of_kind h)
  unfold plainToken?
  refine forall_cut_of_ite (fun _ => plain _ rfl) ?_
  refine forall_cut_of_ite (fun _ => plain _ rfl) ?_
  refine forall_cut_of_ite (fun _ => plain _ rfl) ?_
  refine forall_cut_of_ite (fun _ => plain _ ?_) ?_
  · rcases blockCommentKind_cases cs.tail with hkind | hkind <;> rw [hkind] <;> rfl
  refine forall_cut_of_ite (fun hquote => ?_) ?_
  · rw [beq_iff_eq.mp hquote]
    exact modeStep_openString code cs start
  refine forall_cut_of_ite (fun _ => plain _ rfl) ?_
  refine forall_cut_of_ite (fun _ => plain _ rfl) ?_
  refine forall_cut_of_ite (fun _ => plain _ ?_) ?_
  · rw [Number.scan]
    split
    split <;> rfl
  refine forall_cut_of_ite (fun _ => plain _ ?_) ?_
  · rw [Rules.wordKind]
    split <;> rfl
  refine forall_cut_of_ite (fun _ => modeStep_openBrace code start _) ?_
  refine forall_cut_of_ite (fun hbrace => ?_) ?_
  · rw [beq_iff_eq.mp hbrace]
    exact modeStep_closeBrace code start cs
  intro piece h
  obtain ⟨kind, hkind, rfl⟩ := Option.map_eq_some_iff.mp h
  exact plain _ (mayBrace_punctuation hkind)

theorem modeStep_operatorToken (code : InCode modes) {c : Char} {cs : List Char} {piece : Cut}
    (start : Nat) (h : operatorToken rules modes c cs = .ok piece) :
    ModeStep rules modes (piece.token start (c :: cs)) piece.modes := by
  unfold operatorToken at h
  split at h
  · cases h
  · cases h
    exact .code code (Token.brace?_of_kind rfl)
  · split at h
    · cases h
      exact .code code (Token.brace?_of_kind rfl)
    · split at h <;> cases h <;> exact .code code (Token.brace?_of_kind rfl)

theorem modeStep_codeToken (code : InCode modes) {atStart : Bool} {c : Char} {cs : List Char}
    {piece : Cut} (start : Nat) (h : codeToken rules atStart modes c cs = .ok piece) :
    ModeStep rules modes (piece.token start (c :: cs)) piece.modes := by
  unfold codeToken at h
  split at h
  · next hplain =>
    cases h
    exact modeStep_plainToken? code atStart c cs start _ hplain
  · exact modeStep_operatorToken code start h

theorem codeToken_newline {atStart : Bool} {cs : List Char} {piece : Cut}
    (h : codeToken rules atStart modes '\n' cs = .ok piece) :
    piece.kind = .whitespace ∧ piece.modes = modes := by
  have hspace : Unicode.isWhiteSpace '\n' = true := by decide
  rw [codeToken, plainToken?, if_pos hspace] at h
  cases h
  exact ⟨rfl, rfl⟩

end CodeSteps

namespace Lexer

variable {rules : Rules}

/-- The token that a step reads is cut off the text that is left. -/
theorem exists_cut_of_next {lexer after : Lexer} {t : Token}
    (h : lexer.next rules = .ok (some (t, after))) :
    ∃ c cs piece, lexer.rest = c :: cs ∧ lexer.cut rules c cs = .ok piece ∧
      t = piece.token lexer.offset (c :: cs) ∧ after.modes = piece.modes := by
  unfold next at h
  split at h
  · cases h
  · next c cs hrest =>
    split at h
    · cases h
    · next piece hcut =>
      cases h
      exact ⟨c, cs, piece, hrest, hcut, rfl, rfl⟩

/-- **One token** does to the modes what `ModeStep` allows. -/
theorem modeStep_of_next {lexer after : Lexer} {t : Token}
    (h : lexer.next rules = .ok (some (t, after))) : ModeStep rules lexer.modes t after.modes := by
  obtain ⟨c, cs, piece, -, hcut, rfl, hmodes⟩ := exists_cut_of_next h
  rw [hmodes]
  unfold cut at hcut
  split at hcut
  · next raw outer hstack =>
    rw [hstack]
    split at hcut
    · next hstring =>
      cases hcut
      exact modeStep_stringToken _ hstring
    · next hnone =>
      obtain ⟨rfl, rfl⟩ := eq_newline_of_stringToken_eq_none hnone
      obtain ⟨hkind, hsame⟩ := codeToken_newline hcut
      rw [hsame]
      exact .endLine hkind
  · next hcode => exact modeStep_codeToken hcode _ hcut

/-! ## Reading tokens one after the other -/

/-- `Reads rules lexer ts after`: from `lexer` on, the tokens `ts` are read first, and `after` is
the lexer then. -/
inductive Reads (rules : Rules) : Lexer → List Token → Lexer → Prop
  | nil (lexer : Lexer) : Reads rules lexer [] lexer
  | concat {lexer middle after : Lexer} {ts : List Token} {t : Token}
      (reads : Reads rules lexer ts middle) (next : middle.next rules = .ok (some (t, after))) :
      Reads rules lexer (ts ++ [t]) after

/-- Wherever the tokens are cut in two, there is a lexer between them. -/
theorem exists_reads_of_tokens {lexer : Lexer} {ts us : List Token}
    (h : lexer.tokens rules = .ok (ts ++ us)) :
    ∃ middle, Reads rules lexer ts middle ∧ middle.tokens rules = .ok us := by
  -- the last token of the first part is what is read next after the others
  induction ts using List.reverseRecOn generalizing us with
  | nil => exact ⟨lexer, .nil lexer, h⟩
  | append_singleton ts t ih =>
    rw [List.append_assoc, List.singleton_append] at h
    obtain ⟨middle, reads, hrest⟩ := ih h
    obtain ⟨after, hnext, hus⟩ := exists_next_of_tokens hrest
    exact ⟨after, reads.concat hnext, hus⟩

theorem exists_reads {text : List Char} (productive : rules.Productive) {ts us : List Token}
    (h : SourceEditor.tokens rules text = ts ++ us) :
    ∃ middle, Reads rules (start text) ts middle ∧ middle.tokens rules = .ok us := by
  apply exists_reads_of_tokens
  rw [← h]
  exact lex_eq_ok productive text

end Lexer

/-! ## Alternating modes -/

def Mode.isTemplate : Mode → Bool
  | .string _ => false
  | .template _ => true

/-- Whether the modes, counted from the outermost on, are in turn strings and templates, with a
string first. -/
def Alternates (modes : List Mode) : Prop :=
  ∀ i mode, modes.reverse[i]? = some mode → (mode.isTemplate = true ↔ i % 2 = 1)

theorem alternates_nil : Alternates [] := by
  intro i mode h
  simp at h

theorem alternates_cons {mode : Mode} {modes : List Mode} :
    Alternates (mode :: modes) ↔
      (mode.isTemplate = true ↔ modes.length % 2 = 1) ∧ Alternates modes := by
  unfold Alternates
  simp only [List.reverse_cons]
  constructor
  · intro h
    refine ⟨h modes.length mode (by simp), fun i other hi => h i other ?_⟩
    obtain ⟨hlt, -⟩ := List.getElem?_eq_some_iff.mp hi
    rw [List.getElem?_append_left hlt, hi]
  · rintro ⟨hmode, h⟩ i other hi
    rcases Nat.lt_or_ge i modes.reverse.length with hlt | hge
    · rw [List.getElem?_append_left hlt] at hi
      exact h i other hi
    · rw [List.getElem?_append_right hge, List.getElem?_singleton] at hi
      split at hi
      · next hzero =>
        cases hi
        rw [List.length_reverse] at hge hzero
        rwa [show i = modes.length by omega]
      · cases hi

/-- A string can be opened where the lexer is in code. -/
theorem Alternates.string {modes : List Mode} (h : Alternates modes) (code : InCode modes)
    (raw : Bool) : Alternates (.string raw :: modes) := by
  refine alternates_cons.mpr ⟨?_, h⟩
  match modes with
  | [] => simp [Mode.isTemplate]
  | .string raw :: outer => exact absurd rfl (code raw outer)
  | .template depth :: outer =>
    have hodd : outer.length % 2 = 1 := (alternates_cons.mp h).1.mp rfl
    simp only [Mode.isTemplate, Bool.false_eq_true, false_iff, List.length_cons]
    omega

theorem Alternates.template {raw : Bool} {outer : List Mode}
    (h : Alternates (.string raw :: outer)) (depth : Nat) :
    Alternates (.template depth :: .string raw :: outer) := by
  refine alternates_cons.mpr ⟨?_, h⟩
  have heven := (alternates_cons.mp h).1
  simp only [Mode.isTemplate, Bool.false_eq_true, false_iff, true_iff, List.length_cons] at heven ⊢
  omega

theorem Alternates.modeStep {rules : Rules} {modes after : List Mode} {t : Token}
    (h : Alternates modes) (step : ModeStep rules modes t after) : Alternates after := by
  cases step with
  | code => exact h
  | openString code => exact h.string code _
  | stringText => exact h
  | closeString => exact (alternates_cons.mp h).2
  | endLine => exact (alternates_cons.mp h).2
  | openTemplate => exact h.template 0
  | closeTemplate => exact (alternates_cons.mp h).2
  | openBrace =>
    obtain ⟨hmode, houter⟩ := alternates_cons.mp h
    exact alternates_cons.mpr ⟨hmode, houter⟩
  | closeBrace =>
    obtain ⟨hmode, houter⟩ := alternates_cons.mp h
    exact alternates_cons.mpr ⟨hmode, houter⟩
  | looseBrace => exact h

/-! ## Open braces and their partners -/

theorem Balanced.append {word rest : List Bracket} (h : Balanced word) (hrest : Balanced rest) :
    Balanced (word ++ rest) := by
  induction h with
  | nil => exact hrest
  | @wrap g inner tail hinner _ _ ih =>
    have hword : .opening g :: inner ++ .closing g :: tail ++ rest =
        .opening g :: inner ++ .closing g :: (tail ++ rest) := by simp
    rw [hword]
    exact .wrap g hinner ih

/-- The braces among some tokens. -/
def braces (ts : List Token) : List Bracket := ts.filterMap Token.brace?

/-- Whether the last brace without a partner opens a group: between it and the end of the tokens
every brace has its partner. -/
def LastOpen (g : Group) (ts : List Token) : Prop :=
  ∃ front opener inner, ts = front ++ opener :: inner ∧ opener.brace? = some (.opening g) ∧
    Balanced (braces inner)

/-- `Opens gs ts`: the groups `gs`, innermost first, are open after the tokens `ts`. Their opening
braces are among the tokens, with balanced words between them. What stands before the outermost is
left open. -/
inductive Opens : List Group → List Token → Prop
  | nil (ts : List Token) : Opens [] ts
  | cons {g : Group} {gs : List Group} {front inner : List Token} {opener : Token}
      (outer : Opens gs front) (opens : opener.brace? = some (.opening g))
      (balanced : Balanced (braces inner)) : Opens (g :: gs) (front ++ opener :: inner)

namespace Opens

variable {g : Group} {gs : List Group} {ts : List Token}

theorem lastOpen (h : Opens (g :: gs) ts) : LastOpen g ts := by
  cases h with
  | cons _ opens balanced => exact ⟨_, _, _, rfl, opens, balanced⟩

/-- Balanced tokens leave the open groups as they are. -/
theorem append (h : Opens gs ts) {us : List Token} (balanced : Balanced (braces us)) :
    Opens gs (ts ++ us) := by
  cases h with
  | nil => exact .nil _
  | cons outer opens hinner =>
    rw [List.append_assoc, List.cons_append]
    refine .cons outer opens ?_
    rw [braces, List.filterMap_append]
    exact hinner.append balanced

theorem plain (h : Opens gs ts) {t : Token} (ht : t.brace? = none) : Opens gs (ts ++ [t]) := by
  apply h.append
  rw [braces, List.filterMap_cons_none ht]
  exact .nil

theorem opening (h : Opens gs ts) {t : Token} (ht : t.brace? = some (.opening g)) :
    Opens (g :: gs) (ts ++ [t]) :=
  .cons h ht .nil

theorem closing (h : Opens (g :: gs) ts) {t : Token} (ht : t.brace? = some (.closing g)) :
    Opens gs (ts ++ [t]) := by
  cases h with
  | @cons _ _ front inner opener outer opens hinner =>
    rw [List.append_assoc, List.cons_append]
    apply outer.append
    have hword : braces (opener :: (inner ++ [t])) =
        .opening g :: braces inner ++ .closing g :: [] := by
      simp [braces, List.filterMap_append, opens, ht]
    rw [hword]
    exact .wrap g hinner .nil

end Opens

/-! ## The groups that the modes keep open -/

/-- The groups that some modes keep open, innermost first: the template expressions, and the braces
inside of each that are counted. -/
def openGroups : List Mode → List Group
  | [] => []
  | .string _ :: outer => openGroups outer
  | .template depth :: outer => List.replicate depth .braces ++ .template :: openGroups outer

theorem count_template_openGroups (modes : List Mode) :
    (openGroups modes).count .template = modes.countP Mode.isTemplate := by
  induction modes with
  | nil => rfl
  | cons mode outer ih =>
    cases mode with
    | string raw => simp [openGroups, Mode.isTemplate, ih]
    | template depth =>
      simp [openGroups, Mode.isTemplate, ih, List.count_append, List.count_replicate,
        List.countP_cons]

/-- The modes keep groups open as a reader of brackets does, except that outside of all modes no
brace is counted. -/
theorem ModeStep.openGroups_eq {rules : Rules} {modes after : List Mode} {t : Token}
    (step : ModeStep rules modes t after) :
    (t.brace? = none ∧ openGroups after = openGroups modes) ∨
      (∃ b, t.brace? = some b ∧ b.step (openGroups modes) = some (openGroups after)) ∨
      ((t.kind = .leftBrace ∨ t.kind = .rightBrace) ∧ modes = [] ∧ after = []) := by
  cases step with
  | code _ plain => exact .inl ⟨plain, rfl⟩
  | openString _ kind => exact .inl ⟨Token.brace?_of_kind (by rw [kind]; rfl), rfl⟩
  | stringText plain => exact .inl ⟨plain, rfl⟩
  | closeString kind => exact .inl ⟨Token.brace?_of_kind (by rw [kind]; rfl), rfl⟩
  | endLine kind => exact .inl ⟨Token.brace?_of_kind (by rw [kind]; rfl), rfl⟩
  | openTemplate brace => exact .inr (.inl ⟨_, brace, rfl⟩)
  | closeTemplate brace => exact .inr (.inl ⟨_, brace, rfl⟩)
  | openBrace brace => exact .inr (.inl ⟨_, brace, rfl⟩)
  | closeBrace brace => exact .inr (.inl ⟨_, brace, rfl⟩)
  | looseBrace kind => exact .inr (.inr ⟨kind, rfl, rfl⟩)

/-- How many of the tokens are a given brace. -/
def countBrace (b : Bracket) (ts : List Token) : Nat := (braces ts).count b

/-- What the modes have to do with the tokens that are read. -/
structure Nested (ts : List Token) (modes : List Mode) : Prop where
  alternates : Alternates modes
  /-- The template expressions that are open are those that were opened and not closed. -/
  templates : modes.countP Mode.isTemplate + countBrace (.closing .template) ts =
    countBrace (.opening .template) ts
  opens : Opens (openGroups modes) ts

namespace Nested

variable {rules : Rules} {modes after : List Mode} {ts : List Token} {t : Token}

theorem concat_opens (h : Nested ts modes) (step : ModeStep rules modes t after) :
    Opens (openGroups after) (ts ++ [t]) := by
  obtain ⟨plain, hgroups⟩ | ⟨b, brace, hgroups⟩ | ⟨-, -, rfl⟩ := step.openGroups_eq
  · rw [hgroups]
    exact h.opens.plain plain
  · cases b with
    | opening g =>
      rw [← Option.some.inj hgroups]
      exact h.opens.opening brace
    | closing g =>
      have hopens := h.opens
      rw [Bracket.step_closing_eq_some.mp hgroups] at hopens
      exact hopens.closing brace
  · exact .nil _

theorem concat_templates (h : Nested ts modes) (step : ModeStep rules modes t after) :
    after.countP Mode.isTemplate + countBrace (.closing .template) (ts ++ [t]) =
      countBrace (.opening .template) (ts ++ [t]) := by
  have htemplates := h.templates
  have hconcat (b : Bracket) :
      countBrace b (ts ++ [t]) = countBrace b ts + t.brace?.toList.count b := by
    cases hb : t.brace? <;> simp [countBrace, braces, List.filterMap_append, hb]
  simp only [hconcat, ← count_template_openGroups] at htemplates ⊢
  obtain ⟨plain, hgroups⟩ | ⟨b, brace, hgroups⟩ | ⟨kind, rfl, rfl⟩ := step.openGroups_eq
  · simp only [plain, hgroups, Option.toList_none, List.count_nil]
    omega
  · cases b with
    | opening g =>
      rw [← Option.some.inj hgroups, brace]
      cases g <;> simp <;> omega
    | closing g =>
      rw [Bracket.step_closing_eq_some.mp hgroups] at htemplates
      rw [brace]
      cases g <;> simp at htemplates ⊢ <;> omega
  · rcases kind with kind | kind
    · simpa [Token.brace?_leftBrace kind] using htemplates
    · simpa [Token.brace?_rightBrace kind] using htemplates

theorem concat (h : Nested ts modes) (step : ModeStep rules modes t after) :
    Nested (ts ++ [t]) after where
  alternates := h.alternates.modeStep step
  templates := h.concat_templates step
  opens := h.concat_opens step

/-- A closing brace closes the group that was opened last, unless it is a brace of code outside of
all templates. -/
theorem lastOpen_of_closing (h : Nested ts modes) (step : ModeStep rules modes t after) {g : Group}
    (brace : t.brace? = some (.closing g)) : LastOpen g ts ∨ (g = .braces ∧ modes = []) := by
  obtain ⟨plain, -⟩ | ⟨b, hb, hgroups⟩ | ⟨kind, hmodes, -⟩ := step.openGroups_eq
  · simp [plain] at brace
  · obtain rfl : b = .closing g := Option.some.inj (hb.symm.trans brace)
    have hopens := h.opens
    rw [Bracket.step_closing_eq_some.mp hgroups] at hopens
    exact .inl hopens.lastOpen
  · rcases kind with kind | kind
    · simp [Token.brace?_leftBrace kind] at brace
    · rw [Token.brace?_rightBrace kind] at brace
      cases brace
      exact .inr ⟨rfl, hmodes⟩

end Nested

/-- At every token boundary of a text the modes are nested. -/
theorem Lexer.Reads.nested {rules : Rules} {text : List Char} {ts : List Token} {lexer : Lexer}
    (h : Reads rules (start text) ts lexer) : Nested ts lexer.modes := by
  induction h with
  | nil => exact ⟨alternates_nil, rfl, .nil []⟩
  | concat _ hnext ih => exact ih.concat (modeStep_of_next hnext)

/-- **The modes nest like brackets**: wherever the tokens of a text are cut in two, the lexer
between them is in strings and templates by turns, a string outermost, and in as many templates as
were opened and not closed. The next token leaves a string only where one is innermost, and counts a
brace down only where one is counted. If it ends a template expression, the last brace without a
partner is the one that opened the expression. If it is a closing brace of code, the last brace
without a partner is an opening brace of code, or the lexer is outside of all strings and
templates. -/
theorem modes_nest {rules : Rules} (productive : rules.Productive) (text : List Char)
    (ts us : List Token) (h : tokens rules text = ts ++ us) :
    ∃ lexer, Lexer.Reads rules (.start text) ts lexer ∧ lexer.tokens rules = .ok us ∧
      Alternates lexer.modes ∧
      lexer.modes.countP Mode.isTemplate + countBrace (.closing .template) ts =
        countBrace (.opening .template) ts ∧
      ∀ t ∈ us.head?, ∃ after, lexer.next rules = .ok (some (t, after)) ∧
        ModeStep rules lexer.modes t after.modes ∧
        (t.brace? = some (.closing .template) → LastOpen .template ts) ∧
        (t.kind = .rightBrace → LastOpen .braces ts ∨ lexer.modes = []) := by
  obtain ⟨lexer, reads, hus⟩ := Lexer.exists_reads productive h
  have nested := reads.nested
  refine ⟨lexer, reads, hus, nested.alternates, nested.templates, fun t ht => ?_⟩
  obtain ⟨rest, rfl⟩ := List.head?_eq_some_iff.mp ht
  obtain ⟨after, hnext, -⟩ := Lexer.exists_next_of_tokens hus
  have step := Lexer.modeStep_of_next hnext
  refine ⟨after, hnext, step, fun brace => ?_, fun kind => ?_⟩
  · have := nested.lastOpen_of_closing step brace
    simpa using this
  · have := nested.lastOpen_of_closing step (Token.brace?_rightBrace kind)
    simpa using this

/-- The brace in a string inside of a template expression is the partner of none. -/
theorem modes_nest_brace_in_string :
    let text := ['"', '$', '{', '{', '"', '}', '"', '}', '}']
    let ts : List Token :=
      [⟨.stringLiteral, 0, ['"']⟩, ⟨.templateEntry, 1, ['$', '{']⟩, ⟨.leftBrace, 3, ['{']⟩,
       ⟨.stringLiteral, 4, ['"', '}', '"']⟩, ⟨.rightBrace, 7, ['}']⟩]
    let t : Token := ⟨.templateEntry, 8, ['}']⟩
    Rules.kotlin.Productive ∧ tokens .kotlin text = ts ++ [t] ∧
      ∃ lexer, Lexer.Reads .kotlin (.start text) ts lexer ∧ Alternates lexer.modes ∧
        lexer.modes.countP Mode.isTemplate = 1 ∧ LastOpen .template ts := by
  intro text ts t
  have htokens : tokens .kotlin text = ts ++ [t] := by decide +kernel
  obtain ⟨lexer, reads, -, alternates, templates, next⟩ :=
    modes_nest Rules.productive_kotlin text ts [t] htokens
  obtain ⟨-, -, -, hclose, -⟩ := next t rfl
  exact ⟨Rules.productive_kotlin, htokens, lexer, reads, alternates, templates, hclose rfl⟩

end SourceEditor

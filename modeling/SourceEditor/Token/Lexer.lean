import SourceEditor.Fault
import SourceEditor.Token.Quotation
import SourceEditor.Unicode.WhiteSpace

/-!
# The lexer

`lex` cuts a text into tokens. Malformed text does not stop it: it gives bad characters and
literals without a closing mark. The only failure is a custom operator table whose empty operator is
the longest that matches somewhere, and `lex_eq_ok` says that a productive table never fails.

The lexer remembers what it is inside of as a stack of modes. A string pushes a mode and a `${` in
it another; the `}` that closes the template expression goes back to the string.

* `codeToken` reads one token outside of string text, `stringToken` one piece of string text.
* `Lexer.next` reads a token and `Lexer.next_length_lt` says that less text is left.
-/

namespace SourceEditor

open Number (countWhile)

/-- What the lexer is inside of. -/
inductive Mode where
  | string (raw : Bool)
  /-- A template expression in which `depth` braces are open. -/
  | template (depth : Nat)
  deriving DecidableEq, Repr

/-- One token cut off the rest of a text: its kind, its length, and the modes after it. -/
structure Cut where
  kind : TokenKind
  length : Nat
  /-- The modes after the token, innermost first. -/
  modes : List Mode
  /-- No token is empty. -/
  length_pos : 0 < length := by omega
  deriving DecidableEq, Repr

/-- A token of one character. -/
def Cut.single (kind : TokenKind) (modes : List Mode) : Cut := { kind, length := 1, modes }

/-- The length of the longest operator that starts a text. -/
def longestOperator (rules : Rules) (cs : List Char) : Option Nat :=
  ((rules.operators.map String.toList).filter (·.isPrefixOf cs)).map List.length |>.max?

/-- Reads an operator, a colon or a dot, and takes anything else for a bad character. -/
def operatorToken (rules : Rules) (modes : List Mode) (c : Char) (cs : List Char) :
    Except Fault Cut :=
  match longestOperator rules (c :: cs) with
  | some 0 => .error .overflow
  | some (n + 1) => .ok { kind := .operator, length := n + 1, modes }
  | none =>
    if c == ':' then .ok (.single .colon modes)
    else if c == '.' then .ok (.single .dot modes)
    else .ok (.single .badCharacter modes)

/-- Reads the text of a string of which `before` characters are already read. There is no piece of
text when the string ends, or a template entry starts, with nothing read; an entry is then read
instead, and the end of a string leaves its mode. -/
def stringToken (rules : Rules) (raw : Bool) (outer : List Mode) (before : Nat) (cs : List Char) :
    Option Cut :=
  let inside := Mode.string raw :: outer
  let piece := stringText rules raw cs
  match h : piece.stop with
  | .closed =>
    have hp : 0 < piece.length := stringText_length_pos h
    some { kind := .stringLiteral, length := before + piece.length, modes := outer }
  | .unterminated =>
    if hp : 0 < before + piece.length then
      some ⟨.stringLiteral, before + piece.length, outer, hp⟩
    else none
  | .template =>
    if hp : 0 < before + piece.length then
      some ⟨.stringLiteral, before + piece.length, inside, hp⟩
    else if cs.tail.head? == some '{' then
      some { kind := .templateEntry, length := 2, modes := .template 0 :: inside }
    else
      let isPart c := Unicode.isAlphabetic c || Unicode.isNumeric c || c == '_'
      some { kind := .templateEntry, length := 1 + countWhile isPart cs.tail, modes := inside }

/-- Reads a string from its opening quote, which is followed by `cs`. -/
def openString (rules : Rules) (modes : List Mode) (cs : List Char) : Cut :=
  if rules.rawStrings && ['"', '"'].isPrefixOf cs then
    (stringToken rules true modes 3 (cs.drop 2)).getD { kind := .stringLiteral, length := 3, modes }
  else
    (stringToken rules false modes 1 cs).getD (.single .stringLiteral modes)

/-- Reads an opening brace, which template expressions count. -/
def openBrace : List Mode → Cut
  | .template depth :: modes => .single .leftBrace (.template (depth + 1) :: modes)
  | modes => .single .leftBrace modes

/-- Reads a closing brace: the one that no opening brace of a template expression matches ends the
expression. -/
def closeBrace : List Mode → Cut
  | .template 0 :: modes => .single .templateEntry modes
  | .template (depth + 1) :: modes => .single .rightBrace (.template depth :: modes)
  | modes => .single .rightBrace modes

/-- Reads a name between backticks after its opening mark; a missing closing mark is supplied by
the end of the line. -/
def backtickLength (cs : List Char) : Nat :=
  let name := countWhile (fun c => c != '`' && c != '\n') cs
  name + Number.countOne (· == '`') (cs.drop name)

/-- The kind of a mark that is a token by itself. -/
def punctuation : Char → Option TokenKind
  | '(' => some .leftParen
  | ')' => some .rightParen
  | '[' => some .leftBracket
  | ']' => some .rightBracket
  | ';' => some .semicolon
  | ',' => some .comma
  | '@' => some .at
  | _ => none

/-- Reads one token outside of string text, unless it is for the operator table to decide. The text
is `c` followed by `cs`, and `atStart` says whether it is the whole source. -/
def plainToken? (rules : Rules) (atStart : Bool) (modes : List Mode) (c : Char) (cs : List Char) :
    Option Cut :=
  if Unicode.isWhiteSpace c then
    some { kind := .whitespace, length := 1 + countWhile Unicode.isWhiteSpace cs, modes }
  else if c == '#' && rules.shebang && atStart && cs.head? == some '!' then
    some { kind := .shebang, length := 1 + countWhile (· != '\n') cs, modes }
  else if c == '/' && cs.head? == some '/' then
    some { kind := .lineComment, length := 1 + countWhile (· != '\n') cs, modes }
  else if c == '/' && cs.head? == some '*' then
    some
      { kind := blockCommentKind cs.tail
        length := 2 + blockCommentLength rules.nestedComments 1 cs.tail, modes }
  else if c == '"' then some (openString rules modes cs)
  else if c == '\'' then some { kind := .charLiteral, length := 1 + charLiteralLength cs, modes }
  else if c == '`' && rules.backtickIdentifiers then
    some { kind := .identifier, length := 1 + backtickLength cs, modes }
  else if c.isDigit || (c == '.' && cs.head?.any Char.isDigit) then
    some { kind := (Number.scan c cs).1, length := 1 + (Number.scan c cs).2, modes }
  else if rules.isNameStart c then
    some
      { kind := rules.wordKind (c :: cs.takeWhile rules.isNamePart)
        length := 1 + countWhile rules.isNamePart cs, modes }
  else if c == '{' then some (openBrace modes)
  else if c == '}' then some (closeBrace modes)
  else (punctuation c).map (Cut.single · modes)

/-- Reads one token outside of string text. -/
def codeToken (rules : Rules) (atStart : Bool) (modes : List Mode) (c : Char) (cs : List Char) :
    Except Fault Cut :=
  match plainToken? rules atStart modes c cs with
  | some piece => .ok piece
  | none => operatorToken rules modes c cs

/-- A lexer part-way through a text. -/
structure Lexer where
  /-- How many characters are read. -/
  offset : Nat
  rest : List Char
  /-- What the lexer is inside of, innermost first. -/
  modes : List Mode
  deriving DecidableEq, Repr

namespace Lexer

/-- A lexer at the start of a text. -/
def start (text : List Char) : Lexer := ⟨0, text, []⟩

/-- The next token, read from the text `c :: cs`. -/
def cut (rules : Rules) (lexer : Lexer) (c : Char) (cs : List Char) : Except Fault Cut :=
  match lexer.modes with
  | .string raw :: outer =>
    match stringToken rules raw outer 0 (c :: cs) with
    | some piece => .ok piece
    | none => codeToken rules (lexer.offset == 0) outer c cs
  | modes => codeToken rules (lexer.offset == 0) modes c cs

/-- Reads a token and goes on after it; at the end of the text there is none. -/
def next (rules : Rules) (lexer : Lexer) : Except Fault (Option (Token × Lexer)) :=
  match lexer.rest with
  | [] => .ok none
  | c :: cs =>
    match lexer.cut rules c cs with
    | .error fault => .error fault
    | .ok piece =>
      .ok (some
        (⟨piece.kind, lexer.offset, (c :: cs).take piece.length⟩,
         ⟨lexer.offset + piece.length, (c :: cs).drop piece.length, piece.modes⟩))

end Lexer

/-! ## Progress -/

namespace Lexer

/-- A token is never empty: less text is left after it. -/
theorem next_length_lt {rules : Rules} {lexer after : Lexer} {token : Token}
    (h : lexer.next rules = .ok (some (token, after))) :
    after.rest.length < lexer.rest.length := by
  unfold next at h
  split at h
  · cases h
  · next c cs hrest =>
    split at h
    · cases h
    · next piece _ =>
      cases h
      have := piece.length_pos
      simp only [hrest, List.length_drop, List.length_cons]
      omega

/-- The tokens from here to the end of the text. -/
def tokens (rules : Rules) (lexer : Lexer) : Except Fault (List Token) :=
  match _h : lexer.next rules with
  | .error fault => .error fault
  | .ok none => .ok []
  | .ok (some (token, after)) =>
    match tokens rules after with
    | .error fault => .error fault
    | .ok rest => .ok (token :: rest)
termination_by lexer.rest.length
decreasing_by exact next_length_lt _h

end Lexer

/-- The tokens of a text. -/
def lex (rules : Rules) (text : List Char) : Except Fault (List Token) :=
  (Lexer.start text).tokens rules

/-! ## Productive rules -/

theorem longestOperator_ne_zero {rules : Rules} (h : rules.Productive) (cs : List Char) :
    longestOperator rules cs ≠ some 0 := by
  intro h0
  have := List.max?_mem h0
  simp only [List.mem_map, List.mem_filter, List.length_eq_zero_iff] at this
  obtain ⟨_, ⟨⟨op, hop, rfl⟩, -⟩, hnil⟩ := this
  exact h op hop (by simpa using hnil)

theorem operatorToken_ne_error {rules : Rules} (h : rules.Productive) (modes : List Mode)
    (c : Char) (cs : List Char) (fault : Fault) :
    operatorToken rules modes c cs ≠ .error fault := by
  unfold operatorToken
  split
  · next h0 => exact absurd h0 (longestOperator_ne_zero h _)
  · simp
  · split
    · simp
    · split <;> simp

theorem codeToken_ne_error {rules : Rules} (h : rules.Productive) (atStart : Bool)
    (modes : List Mode) (c : Char) (cs : List Char) (fault : Fault) :
    codeToken rules atStart modes c cs ≠ .error fault := by
  unfold codeToken
  split
  · simp
  · exact operatorToken_ne_error h modes c cs fault

namespace Lexer

theorem cut_ne_error {rules : Rules} (h : rules.Productive) (lexer : Lexer) (c : Char)
    (cs : List Char) (fault : Fault) : lexer.cut rules c cs ≠ .error fault := by
  unfold cut
  split
  · split
    · simp
    · exact codeToken_ne_error h _ _ c cs fault
  · exact codeToken_ne_error h _ _ c cs fault

theorem next_ne_error {rules : Rules} (h : rules.Productive) (lexer : Lexer) (fault : Fault) :
    lexer.next rules ≠ .error fault := by
  unfold next
  split
  · simp
  · next c cs _ =>
    split
    · next hcut => exact absurd hcut (cut_ne_error h lexer c cs _)
    · simp

/-- With productive rules the lexer reaches the end of every text. -/
theorem exists_tokens_eq_ok {rules : Rules} (h : rules.Productive) (lexer : Lexer) :
    ∃ ts, lexer.tokens rules = .ok ts := by
  fun_induction tokens rules lexer with
  | case1 lexer fault hnext => exact absurd hnext (next_ne_error h lexer fault)
  | case2 => exact ⟨_, rfl⟩
  | case3 _ _ _ _ fault hrest ih => simp [hrest] at ih
  | case4 => exact ⟨_, rfl⟩

end Lexer

/-- The tokens of a text under rules that do not fail. -/
def tokens (rules : Rules) (text : List Char) : List Token := (lex rules text).toOption.getD []

/-- With productive rules every text has tokens. -/
theorem lex_eq_ok {rules : Rules} (h : rules.Productive) (text : List Char) :
    lex rules text = .ok (tokens rules text) := by
  obtain ⟨ts, hts⟩ := Lexer.exists_tokens_eq_ok h (Lexer.start text)
  simp [tokens, lex, hts, Except.toOption]

end SourceEditor

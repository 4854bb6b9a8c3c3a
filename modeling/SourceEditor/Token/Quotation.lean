import SourceEditor.Token.Number
import SourceEditor.Token.Rules

/-!
# Comments, character literals and strings

The constructs that run up to a closing mark. Each function is given what follows the opening mark
and returns a length. None of them needs its closing mark: a block comment and a raw string then
run to the end of the text, everything else to the end of the line.
-/

namespace SourceEditor

/-- The length of a block comment after its opening, up to and with the closing that ends
`depth` open comments. -/
def blockCommentLength (nested : Bool) : (depth : Nat) → List Char → Nat
  | 0, _ => 0
  | _ + 1, [] => 0
  | _ + 1, [_] => 1
  | depth + 1, c :: d :: cs =>
    if c == '*' && d == '/' then 2 + blockCommentLength nested depth cs
    else if nested && c == '/' && d == '*' then 2 + blockCommentLength nested (depth + 2) cs
    else 1 + blockCommentLength nested (depth + 1) (d :: cs)

/-- The kind of a block comment, told from what follows its opening: another star that does not
close the comment at once makes it documentation. -/
def blockCommentKind : List Char → TokenKind
  | c :: cs => if c == '*' && cs.head? != some '/' then .docComment else .blockComment
  | [] => .blockComment

/-- The length of a character literal after its opening quote. -/
def charLiteralLength : List Char → Nat
  | [] => 0
  | c :: cs =>
    if c == '\n' then 0
    else if c == '\\' then
      match cs with
      | d :: ds => if d == '\n' then 1 else 2 + charLiteralLength ds
      | [] => 1
    else if c == '\'' then 1
    else 1 + charLiteralLength cs

/-- Where the reading of string text stopped. -/
inductive StringStop where
  /-- Past the closing quote. -/
  | closed
  /-- Before the end of the line or of the text, with no closing quote. -/
  | unterminated
  /-- Before a template entry. -/
  | template
  deriving DecidableEq, Repr

/-- Whether a template entry follows a `$`: a name or an opening brace. -/
def startsTemplate : List Char → Bool
  | c :: _ => c == '{' || Unicode.isAlphabetic c || c == '_'
  | [] => false

/-- A piece of string text: its length, and why it stops there. -/
structure StringText where
  length : Nat
  stop : StringStop
  deriving DecidableEq, Repr

/-- The piece with `n` characters in front of it. -/
def StringText.after (n : Nat) (piece : StringText) : StringText := ⟨n + piece.length, piece.stop⟩

/-- How much of a text is string text. A raw string ends with a run of at least three quotes, all of
which belong to it; an ordinary one ends at a quote that no backslash precedes, or at the end of
its line. -/
def stringText (rules : Rules) (raw : Bool) : List Char → StringText
  | [] => ⟨0, .unterminated⟩
  | c :: cs =>
    if c == '"' then
      if raw && Number.countWhile (· == '"') cs < 2 then (stringText rules raw cs).after 1
      else if raw then ⟨1 + Number.countWhile (· == '"') cs, .closed⟩
      else ⟨1, .closed⟩
    else if c == '\n' && !raw then ⟨0, .unterminated⟩
    else if c == '\\' && !raw then
      match cs with
      | d :: ds => if d == '\n' then ⟨1, .unterminated⟩ else (stringText rules raw ds).after 2
      | [] => ⟨1, .unterminated⟩
    else if c == '$' && rules.stringTemplates && startsTemplate cs then ⟨0, .template⟩
    else (stringText rules raw cs).after 1

/-- A string that is closed has its closing quote. -/
theorem stringText_length_pos {rules : Rules} {raw : Bool} {cs : List Char}
    (h : (stringText rules raw cs).stop = .closed) : 0 < (stringText rules raw cs).length := by
  unfold stringText at h ⊢
  grind [StringText.after]

end SourceEditor

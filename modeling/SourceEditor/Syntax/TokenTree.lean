import SourceEditor.Syntax.Builder
import SourceEditor.Text.Offset
import SourceEditor.Token.Lexer

/-!
# Syntax trees from tokens

A token tree groups the tokens of a text by their brackets: `(...)`, `{...}`, `[...]` and the
template expressions `${...}` of strings become nodes, and every token a leaf. Unbalanced text has
a tree too:

* a closing bracket that closes nothing is an error leaf;
* one that closes a group further out ends the groups inside it where it stands, as errors;
* groups that are open at the end of the text end there, as errors.
-/

namespace SourceEditor

/-- The kinds of brackets. -/
inductive Group where
  | parentheses
  | braces
  | brackets
  | template
  deriving DecidableEq, Repr

namespace Group

/-- The kind of the node that a group becomes. -/
def kind : Group → String
  | .parentheses => "parenthesized"
  | .braces => "block"
  | .brackets => "indexed"
  | .template => "template_expression"

/-- The group that a token opens. -/
def openedBy? (t : Token) : Option Group :=
  match t.kind with
  | .leftParen => some .parentheses
  | .leftBrace => some .braces
  | .leftBracket => some .brackets
  | .templateEntry => if t.text == ['$', '{'] then some .template else none
  | _ => none

/-- The group that a token closes. -/
def closedBy? (t : Token) : Option Group :=
  match t.kind with
  | .rightParen => some .parentheses
  | .rightBrace => some .braces
  | .rightBracket => some .brackets
  | .templateEntry => if t.text == ['}'] then some .template else none
  | _ => none

end Group

/-- Whether tokens of this kind are named nodes: names, literals and comments. -/
def TokenKind.isNamed : TokenKind → Bool
  | .identifier | .integerLiteral | .floatLiteral | .charLiteral | .stringLiteral
  | .lineComment | .blockComment | .docComment | .shebang => true
  | _ => false

namespace TokenTree

/-- A token tree in the making. -/
structure State where
  builder : Builder
  /-- The groups that are open, innermost first. -/
  groups : List Group
  /-- The character and the byte offset that the tokens so far reach. -/
  stop : Nat
  stopByte : Nat
  deriving Repr

/-- The root of every token tree. -/
def rootShape : NodeShape := { kind := "source_file", named := true }

def State.start (source : List Char) : State := ⟨Builder.start source rootShape, [], 0, 0⟩

/-- Ends the groups inside the nearest open `group` where the token stands, as errors. Gives the
builder with that group innermost, and the groups around it. -/
def closeInside (group : Group) (stop stopByte : Nat) :
    List Group → Builder → Builder × List Group
  | [], b => (b, [])
  | g :: gs, b =>
    if g = group then (b, gs)
    else closeInside group stop stopByte gs (b.markError.leave stop stopByte)

/-- Adds a token. -/
def State.add (s : State) (t : Token) : State :=
  let stopByte := s.stopByte + byteLength t.text
  let range : Span := ⟨t.start, t.stop⟩
  let bytes : Span := ⟨s.stopByte, stopByte⟩
  match Group.openedBy? t with
  | some group =>
    let entered := s.builder.enter { kind := group.kind, named := true } t.start s.stopByte
    { builder := entered.leaf { kind := t.kind.name } range bytes
      groups := group :: s.groups, stop := t.stop, stopByte }
  | none =>
    match Group.closedBy? t with
    | some group =>
      if group ∈ s.groups then
        let (b, groups) := closeInside group t.start s.stopByte s.groups s.builder
        { builder := (b.leaf { kind := t.kind.name } range bytes).leave t.stop stopByte
          groups, stop := t.stop, stopByte }
      else
        { builder := s.builder.leaf { kind := t.kind.name, error := true } range bytes
          groups := s.groups, stop := t.stop, stopByte }
    | none =>
      let shape : NodeShape :=
        { kind := t.kind.name, named := t.kind.isNamed, error := t.kind == .badCharacter }
      { builder := s.builder.leaf shape range bytes
        groups := s.groups, stop := t.stop, stopByte }

/-- The finished tree: groups that are still open end here, as errors. -/
def State.finish (s : State) : SyntaxTree :=
  let b := s.groups.foldl (fun b _ => b.markError.leave s.stop s.stopByte) s.builder
  b.finish s.stop s.stopByte

/-- The tree of the tokens of a source. -/
def ofTokens (source : List Char) (ts : List Token) : SyntaxTree :=
  (ts.foldl State.add (State.start source)).finish

/-- The token tree of a Kotlin source. -/
def parse (source : List Char) : SyntaxTree :=
  ofTokens source (tokens Rules.kotlin source)

end TokenTree

end SourceEditor

/-!
# Tokens

A token is a piece of the source text with its kind and the character offset at which it starts.
-/

namespace SourceEditor

/-- The lexical classes of tokens. -/
inductive TokenKind where
  | whitespace
  | identifier
  | keyword
  | integerLiteral
  | floatLiteral
  | charLiteral
  /-- A run of string text, with its quotes where it has them. -/
  | stringLiteral
  /-- `$name`, `${`, or the `}` that closes a template expression. -/
  | templateEntry
  | lineComment
  | blockComment
  | docComment
  | shebang
  | leftParen
  | rightParen
  | leftBrace
  | rightBrace
  | leftBracket
  | rightBracket
  | semicolon
  | colon
  | comma
  | dot
  | at
  | operator
  | badCharacter
  deriving DecidableEq, Repr

/-- The name of a token kind in listings and syntax trees. -/
def TokenKind.name : TokenKind → String
  | .whitespace => "whitespace"
  | .identifier => "identifier"
  | .keyword => "keyword"
  | .integerLiteral => "integer_literal"
  | .floatLiteral => "float_literal"
  | .charLiteral => "char_literal"
  | .stringLiteral => "string_literal"
  | .templateEntry => "template_entry"
  | .lineComment => "line_comment"
  | .blockComment => "block_comment"
  | .docComment => "doc_comment"
  | .shebang => "shebang"
  | .leftParen => "("
  | .rightParen => ")"
  | .leftBrace => "\x7b"
  | .rightBrace => "\x7d"
  | .leftBracket => "["
  | .rightBracket => "]"
  | .semicolon => ";"
  | .colon => ":"
  | .comma => ","
  | .dot => "."
  | .at => "@"
  | .operator => "operator"
  | .badCharacter => "bad_character"

/-- Whether tokens of this kind carry no meaning for the grammar: white space and comments. -/
def TokenKind.isTrivia : TokenKind → Bool
  | .whitespace | .lineComment | .blockComment | .docComment | .shebang => true
  | _ => false

/-- A token of a source text. -/
structure Token where
  kind : TokenKind
  /-- The offset of its first character. -/
  start : Nat
  text : List Char
  deriving DecidableEq, Repr

/-- The offset just past the last character of a token. -/
def Token.stop (t : Token) : Nat := t.start + t.text.length

end SourceEditor

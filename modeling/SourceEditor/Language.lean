import SourceEditor.Style.Scheme
import SourceEditor.Syntax.RawTree
import SourceEditor.Syntax.TokenTree

/-!
# Languages

The languages that the editor knows, how a file name selects one, and what each of them brings: its
lexical rules, the categories of its tokens and its syntax trees. Kotlin is parsed here; the trees
of Java come from an external parser, which is a parameter of everything that needs them.
-/

namespace SourceEditor

inductive Language where
  | java
  | kotlin
  deriving DecidableEq, Repr

/-- What an external parser makes of a source. -/
abbrev ExternalParser := List Char → RawTree

/-- The tree of a Java source without parts. -/
def noJavaParts : ExternalParser := fun text =>
  .node ⟨"program", none, true, false, false, ⟨0, byteLength text⟩⟩ []

namespace Language

/-- All languages, in the order in which they are tried. -/
def all : List Language := [.java, .kotlin]

def name : Language → String
  | .java => "Java"
  | .kotlin => "Kotlin"

/-- The file name extensions of a language, in lower case. -/
def extensions : Language → List String
  | .java => ["java"]
  | .kotlin => ["kt", "kts"]

/-- What follows the last dot of a file name. -/
def extension? (fileName : List Char) : Option (List Char) :=
  if '.' ∈ fileName then some (fileName.reverse.takeWhile (· != '.')).reverse else none

/-- Whether a file name has an extension of the language, in either case. -/
def accepts (language : Language) (fileName : List Char) : Bool :=
  (extension? fileName).any fun ext =>
    language.extensions.any fun candidate => candidate.toList == ext.map Char.toLower

/-- The first language that accepts a file name. -/
def detect? (fileName : List Char) : Option Language := all.find? (·.accepts fileName)

/-- The mark that starts a line comment. -/
def lineComment : Language → List Char
  | .java | .kotlin => ['/', '/']

def rules : Language → Rules
  | .java => .java
  | .kotlin => .kotlin

theorem productive_rules (language : Language) : language.rules.Productive := by
  cases language
  · exact Rules.productive_java
  · exact Rules.productive_kotlin

/-- The tokens of a source. -/
def tokens (language : Language) (source : List Char) : List Token :=
  SourceEditor.tokens language.rules source

/-- The syntax tree of a source. -/
def parse (java : ExternalParser) (language : Language) (source : List Char) : SyntaxTree :=
  match language with
  | .java => RawTree.toSyntaxTree source (java source)
  | .kotlin => TokenTree.parse source

end Language

/-- The category of the tokens of a kind. White space and bad characters have none. -/
def TokenKind.category? : TokenKind → Option Category
  | .whitespace | .badCharacter => none
  | .identifier => some .identifier
  | .keyword => some .keyword
  | .integerLiteral | .floatLiteral => some .number
  | .charLiteral => some .charLiteral
  | .stringLiteral => some .string
  | .templateEntry => some .stringTemplate
  | .lineComment | .shebang => some .lineComment
  | .blockComment => some .blockComment
  | .docComment => some .docComment
  | .leftParen | .rightParen => some .parentheses
  | .leftBrace | .rightBrace => some .braces
  | .leftBracket | .rightBracket => some .brackets
  | .semicolon => some .semicolon
  | .colon => some .colon
  | .comma => some .comma
  | .dot | .at | .operator => some .operator

end SourceEditor

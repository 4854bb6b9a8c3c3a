import SourceEditor.Token.Basic
import SourceEditor.Unicode.Alphabetic
import SourceEditor.Unicode.Numeric

/-!
# Lexical rules

What distinguishes the lexical grammar of one language from another's: the words and operators it
reserves, and six choices about strings, comments and names.
-/

namespace SourceEditor

/-- The lexical rules of a language. -/
structure Rules where
  keywords : List String
  /-- The operators; where several match, the longest is read. -/
  operators : List String
  /-- Whether `$name` and `${ ... }` in a string are template entries. -/
  stringTemplates : Bool
  /-- Whether `"""` opens a raw string. -/
  rawStrings : Bool
  nestedComments : Bool
  /-- Whether `$` may stand in a name. -/
  dollarIdentifiers : Bool
  /-- Whether any text between backticks is a name. -/
  backtickIdentifiers : Bool
  /-- Whether `#!` at the very start opens a comment. -/
  shebang : Bool
  deriving DecidableEq, Repr

namespace Rules

/-- The lexical rules of Java. -/
def java : Rules where
  keywords :=
    ["abstract", "assert", "boolean", "break", "byte", "case", "catch", "char", "class",
     "const", "continue", "default", "do", "double", "else", "enum", "extends", "false",
     "final", "finally", "float", "for", "goto", "if", "implements", "import", "instanceof",
     "int", "interface", "long", "native", "new", "null", "package", "permits", "private",
     "protected", "public", "record", "return", "sealed", "short", "static", "strictfp",
     "super", "switch", "synchronized", "this", "throw", "throws", "transient", "true", "try",
     "var", "void", "volatile", "while", "yield"]
  operators :=
    [">>>=", "<<=", ">>=", ">>>", "...", "->", "::", "++", "--", "&&", "||", "==", "!=", "<=",
     ">=", "+=", "-=", "*=", "/=", "%=", "&=", "|=", "^=", "<<", ">>", "+", "-", "*", "/",
     "%", "=", "<", ">", "!", "~", "?", "&", "|", "^"]
  stringTemplates := false
  rawStrings := true
  nestedComments := false
  dollarIdentifiers := true
  backtickIdentifiers := false
  shebang := false

/-- The lexical rules of Kotlin: its hard keywords, its soft keywords and its modifiers are all
keywords here. -/
def kotlin : Rules where
  keywords :=
    ["as", "break", "class", "continue", "do", "else", "false", "for", "fun", "if", "in",
     "interface", "is", "null", "object", "package", "return", "super", "this", "throw",
     "true", "try", "typealias", "typeof", "val", "var", "when", "while",
     "by", "catch", "constructor", "delegate", "dynamic", "field", "file", "finally", "get",
     "import", "init", "param", "property", "receiver", "set", "setparam", "where",
     "abstract", "actual", "annotation", "companion", "const", "crossinline", "data", "enum",
     "expect", "external", "final", "infix", "inline", "inner", "internal", "lateinit",
     "noinline", "open", "operator", "out", "override", "private", "protected", "public",
     "reified", "sealed", "suspend", "tailrec", "vararg", "value"]
  operators :=
    ["===", "!==", "..<", "!!", "?:", "?.", "::", "..", "->", "++", "--", "&&", "||", "==",
     "!=", "<=", ">=", "+=", "-=", "*=", "/=", "%=", "+", "-", "*", "/", "%", "=", "<", ">",
     "!", "?", "&", "|"]
  stringTemplates := true
  rawStrings := true
  nestedComments := true
  dollarIdentifiers := false
  backtickIdentifiers := true
  shebang := true

/-- The kind of a word: a keyword if it is reserved, otherwise a name. -/
def wordKind (rules : Rules) (word : List Char) : TokenKind :=
  if rules.keywords.contains (String.ofList word) then .keyword else .identifier

/-- Whether a character may start a name. -/
def isNameStart (rules : Rules) (c : Char) : Bool :=
  Unicode.isAlphabetic c || c == '_' || (rules.dollarIdentifiers && c == '$')

/-- Whether a character may stand in a name after its first. -/
def isNamePart (rules : Rules) (c : Char) : Bool :=
  Unicode.isAlphabetic c || Unicode.isNumeric c || c == '_' || (rules.dollarIdentifiers && c == '$')

/-- Whether every operator has a character. The empty operator matches everywhere and reads
nothing. -/
def Productive (rules : Rules) : Prop := ∀ op ∈ rules.operators, op ≠ ""

instance (rules : Rules) : Decidable rules.Productive :=
  inferInstanceAs (Decidable (∀ op ∈ rules.operators, op ≠ ""))

theorem productive_java : java.Productive := by decide

theorem productive_kotlin : kotlin.Productive := by decide

end Rules

end SourceEditor

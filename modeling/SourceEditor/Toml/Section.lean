import SourceEditor.Settings.Value
import SourceEditor.Toml.Quoted

/-!
# Writing TOML

What is written is a sequence of sections: keys with their values, after a header. The keys are
words that need no quotes.
-/

namespace SourceEditor.Toml

/-- A value as it is written. -/
inductive Literal where
  | boolean (b : Bool)
  | integer (n : Int)
  | string (text : List Char)
  | strings (texts : List (List Char))
  deriving DecidableEq, Repr

/-- What a literal stands for. -/
def Literal.toValue : Literal → Value
  | .boolean b => .boolean b
  | .integer n => .integer n
  | .string text => .string text
  | .strings texts => .array (texts.map .string)

/-- An integer in base ten. -/
def writeInteger : Int → List Char
  | .ofNat n => Nat.toDigits 10 n
  | .negSucc n => '-' :: Nat.toDigits 10 (n + 1)

/-- A list of texts: more than one stand on lines of their own, each with a comma after it. -/
def writeStrings : List (List Char) → List Char
  | [] => ['[', ']']
  | [text] => '[' :: (write text ++ [']'])
  | texts =>
    ['[', '\n'] ++ texts.flatMap (fun text => "    ".toList ++ write text ++ [',', '\n']) ++ [']']

/-- The written form of a literal. -/
def Literal.toChars : Literal → List Char
  | .boolean true => "true".toList
  | .boolean false => "false".toList
  | .integer n => writeInteger n
  | .string text => write text
  | .strings texts => writeStrings texts

/-- Keys with their values, in the table with the given path. -/
structure Section where
  path : List String
  pairs : List (String × Literal)
  deriving DecidableEq, Repr

namespace Section

/-- The line of a key. -/
def pairLine (pair : String × Literal) : List Char :=
  pair.1.toList ++ " = ".toList ++ pair.2.toChars ++ ['\n']

/-- The header of a section, after an empty line. The first section has none. -/
def header : (path : List String) → List Char
  | [] => []
  | path => "\n[".toList ++ (".".intercalate path).toList ++ "]\n".toList

/-- The written form of a section. -/
def toChars (s : Section) : List Char := header s.path ++ s.pairs.flatMap pairLine

end Section

/-- The written form of a document. -/
def writeSections (sections : List Section) : List Char := sections.flatMap Section.toChars

end SourceEditor.Toml

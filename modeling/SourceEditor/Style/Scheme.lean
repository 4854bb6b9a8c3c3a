import SourceEditor.Style.Basic

/-!
# Color schemes

A scheme gives a style to every category of highlighted source. `Scheme.standard` is the one that is
used where the settings say nothing.
-/

namespace SourceEditor

/-- What a piece of source is highlighted as. -/
inductive Category where
  | keyword
  | string
  | stringTemplate
  | charLiteral
  | number
  | lineComment
  | blockComment
  | docComment
  | operator
  | parentheses
  | braces
  | brackets
  | semicolon
  | colon
  | comma
  | identifier
  | annotationName
  | typeName
  | functionDeclaration
  | functionCall
  | property
  | localVariable
  | parameter
  | namespaceName
  deriving DecidableEq, Repr

namespace Category

/-- All categories, in the order in which settings list them. -/
def all : List Category :=
  [.keyword, .string, .stringTemplate, .charLiteral, .number, .lineComment, .blockComment,
   .docComment, .operator, .parentheses, .braces, .brackets, .semicolon, .colon, .comma,
   .identifier, .annotationName, .typeName, .functionDeclaration, .functionCall, .property,
   .localVariable, .parameter, .namespaceName]

theorem mem_all (c : Category) : c ∈ all := by cases c <;> decide

/-- The key under which settings give the style of a category. -/
def key : Category → String
  | .keyword => "keywords"
  | .string => "strings"
  | .stringTemplate => "template_entries"
  | .charLiteral => "char_literals"
  | .number => "numbers"
  | .lineComment => "line_comments"
  | .blockComment => "block_comments"
  | .docComment => "doc_comments"
  | .operator => "operators"
  | .parentheses => "parentheses"
  | .braces => "braces"
  | .brackets => "brackets"
  | .semicolon => "semicolons"
  | .colon => "colons"
  | .comma => "commas"
  | .identifier => "identifiers"
  | .annotationName => "annotations"
  | .typeName => "type_names"
  | .functionDeclaration => "function_declarations"
  | .functionCall => "function_calls"
  | .property => "properties"
  | .localVariable => "variables"
  | .parameter => "parameters"
  | .namespaceName => "namespaces"

end Category

/-- A style for every category. -/
@[ext]
structure Scheme where
  style : Category → Style

namespace Scheme

instance : DecidableEq Scheme := fun a b =>
  if h : ∀ c ∈ Category.all, a.style c = b.style c then
    isTrue (Scheme.ext (funext fun c => h c c.mem_all))
  else
    isFalse fun hab => h fun _ _ => by rw [hab]

/-- The style of each category where the settings say nothing. -/
def standardStyle : Category → Style
  | .keyword => { Style.colored 0xcc7832 with bold := true }
  | .string => .colored 0x6a8759
  | .stringTemplate => .colored 0xcc7832
  | .charLiteral => .colored 0x6a8759
  | .number => .colored 0x6897bb
  | .lineComment | .blockComment => { Style.colored 0x808080 with italic := true }
  | .docComment => { Style.colored 0x629755 with italic := true }
  | .operator | .parentheses | .braces | .brackets => .colored 0xa9b7c6
  | .semicolon => .colored 0xcc7832
  | .colon => .colored 0xa9b7c6
  | .comma => .colored 0xcc7832
  | .identifier => .colored 0xa9b7c6
  | .annotationName => .colored 0xbbb529
  | .typeName => .colored 0x769aa5
  | .functionDeclaration => .colored 0xffc66d
  | .functionCall => { Style.colored 0xa9b7c6 with italic := true }
  | .property => .colored 0x9876aa
  | .localVariable => .colored 0xa9b7c6
  | .parameter => { Style.colored 0xa9b7c6 with underline := true }
  | .namespaceName => .colored 0xafbf7e

/-- The scheme that is used where the settings say nothing. -/
def standard : Scheme := ⟨standardStyle⟩

end Scheme

end SourceEditor

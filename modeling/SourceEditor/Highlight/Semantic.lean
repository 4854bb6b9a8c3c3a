import SourceEditor.Highlight.Java
import SourceEditor.Highlight.Kotlin
import SourceEditor.Language

/-!
# Highlights by language

The highlights of a source in each language: those of its tokens, and those of its syntax tree.
-/

namespace SourceEditor

/-- The highlight of a token, if its kind has a category. -/
def Token.highlight? (t : Token) : Option Highlight :=
  t.kind.category?.map (⟨⟨t.start, t.stop⟩, ·⟩)

namespace Language

/-- The highlights of the tokens of a source. -/
def lexicalHighlights (language : Language) (source : List Char) : List Highlight :=
  (language.tokens source).filterMap Token.highlight?

/-- The highlights of a syntax tree. -/
def semanticHighlights (language : Language) (tree : SyntaxTree) : List Highlight :=
  match language with
  | .java => tree.highlights Java.highlight
  | .kotlin => tree.highlights (Kotlin.highlight tree.source)

end Language

end SourceEditor

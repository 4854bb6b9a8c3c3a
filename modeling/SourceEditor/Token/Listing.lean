import SourceEditor.Text.Quoted
import SourceEditor.Token.Basic

/-!
# Listings of tokens

The tokens of a text, one to a line: the range, the kind and the text in quotes.
-/

namespace SourceEditor

/-- The line of a token. -/
def Token.line (t : Token) : String :=
  s!"{t.start}..{t.stop} " ++ t.kind.name ++ " " ++ String.ofList (Quoted.quote t.text) ++ "\n"

/-- The lines of several tokens. -/
def tokenListing (ts : List Token) : String := String.join (ts.map Token.line)

end SourceEditor

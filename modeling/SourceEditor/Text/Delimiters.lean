/-!
# Delimiter pairs

Which characters open and close each other. `Delimiters.standard` is the table of the editor.
-/

namespace SourceEditor

/-- Pairs of an opening and a closing character. -/
structure Delimiters where
  pairs : List (Char × Char)
  deriving DecidableEq, Repr

namespace Delimiters

/-- The pairs that the editor knows. Quotes close themselves. -/
def standard : Delimiters where
  pairs :=
    [('"', '"'), ('\'', '\''), ('“', '”'), ('‘', '’'), ('`', '`'), ('(', ')'), ('（', '）'),
     ('『', '』'), ('「', '」'), ('〖', '〗'), ('【', '】'), ('[', ']'), ('〔', '〕'), ('［', '］'),
     ('{', '}'), ('｛', '｝'), ('<', '>'), ('《', '》'), ('〈', '〉'), ('‹', '›'), ('«', '»')]

/-- The character that closes `c`; of several pairs the last counts. -/
def closer? (d : Delimiters) (c : Char) : Option Char :=
  (d.pairs.reverse.find? (·.1 == c)).map Prod.snd

/-- The character that opens what `c` closes; of several pairs the last counts. -/
def opener? (d : Delimiters) (c : Char) : Option Char :=
  (d.pairs.reverse.find? (·.2 == c)).map Prod.fst

/-- The number of characters that open something. -/
def size (d : Delimiters) : Nat := (d.pairs.map Prod.fst).eraseDups.length

def isEmpty (d : Delimiters) : Bool := d.pairs.isEmpty

end Delimiters

end SourceEditor

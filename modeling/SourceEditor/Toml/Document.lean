import SourceEditor.Toml.Item
import SourceEditor.Toml.Quoted
import SourceEditor.Toml.Scalar

/-!
# TOML documents

A document is a sequence of statements, one to a line: a key with its value, the header of a table,
or the header of one more table of a list. `read?` gives the table that a document describes.
-/

namespace SourceEditor.Toml

/-- Takes something off the front of a text. -/
abbrev Reader (α : Type) := List Char → Option (α × List Char)

/-! ## Blanks and line ends -/

/-- The text after a comment, if it starts with one. -/
def skipComment : List Char → List Char
  | '#' :: cs => cs.dropWhile isPrintable
  | cs => cs

theorem length_skipComment_le (s : List Char) : (skipComment s).length ≤ s.length := by
  unfold skipComment
  split
  · have := (List.dropWhile_sublist isPrintable (l := ‹List Char›)).length_le
    simp only [List.length_cons]
    omega
  · exact Nat.le_refl _

/-- The text after spaces and a comment up to the end of the line, and after that. -/
def lineEnd? (s : List Char) : Option (List Char) :=
  match skipComment (skipSpaces s) with
  | [] => some []
  | rest => newline? rest

/-- The text after blanks, line ends and whole comments. -/
def skipBlanks (s : List Char) : List Char :=
  match _h : newline? (skipComment (skipSpaces s)) with
  | some rest => skipBlanks rest
  | none => skipSpaces s
termination_by s.length
decreasing_by
  have h1 := length_lt_of_newline? _h
  have h2 := length_skipComment_le (skipSpaces s)
  have h3 := length_skipSpaces_le s
  omega

/-! ## Keys -/

/-- One or more items with a mark between them. A mark that no item follows is left. -/
def separated {α : Type} (item : Reader α) (mark : Char) (s : List Char) :
    Option (List α × List Char) :=
  match item s with
  | none => none
  | some (a, []) => some ([a], [])
  | some (a, c :: rest) =>
    if c = mark ∧ rest.length < s.length then
      match separated item mark rest with
      | some (as, rest) => some (a :: as, rest)
      | none => some ([a], c :: rest)
    else some ([a], c :: rest)
termination_by s.length

def isBareKeyChar (c : Char) : Bool := c.isAlphanum || c == '_' || c == '-'

/-- One part of a key: a word, or text quoted on one line. -/
def keyPart? : Reader String
  | '"' :: cs => (basic? cs).map fun (text, rest) => (String.ofList text, rest)
  | '\'' :: cs => (literal? cs).map fun (text, rest) => (String.ofList text, rest)
  | cs =>
    let word := cs.takeWhile isBareKeyChar
    if word.isEmpty then none else some (String.ofList word, cs.dropWhile isBareKeyChar)

/-- One part of a key with the spaces around it. -/
def spacedKeyPart? : Reader String := fun s =>
  (keyPart? (skipSpaces s)).map fun (part, rest) => (part, skipSpaces rest)

/-- A key that lies in tables. -/
structure Key where
  path : List String
  name : String
  deriving DecidableEq, Repr

/-- The number of parts that a key must stay below, and of brackets in brackets. -/
def nestingLimit : Nat := 80

/-- A key: parts with dots between them. -/
def key? : Reader Key := fun s =>
  match separated spacedKeyPart? '.' s with
  | some (parts, rest) =>
    match parts.getLast? with
    | some name => if parts.length < nestingLimit then some (⟨parts.dropLast, name⟩, rest) else none
    | none => none
  | none => none

/-- The text after a mark. -/
def expect? (mark : Char) : List Char → Option (List Char)
  | [] => none
  | c :: cs => if c = mark then some cs else none

/-- A key, a mark of equality and a value. -/
def assignment? (value? : Reader Value) : Reader (Key × Value) := fun s => do
  let (key, s) ← key? s
  let s ← expect? '=' s
  let (v, s) ← value? (skipSpaces s)
  return ((key, v), s)

/-! ## Values -/

/-- The items of a list and its end, after the opening bracket. Items lie on any number of lines,
and a comma may follow the last. -/
def array? (value? : Reader Value) : Reader Value := fun s =>
  let item : Reader Value := fun s =>
    (value? (skipBlanks s)).map fun (v, rest) => (v, skipBlanks rest)
  match separated item ',' s with
  | none => (expect? ']' (skipBlanks s)).map (.array [], ·)
  | some (items, rest) =>
    let rest := skipBlanks ((expect? ',' rest).getD rest)
    (expect? ']' rest).map (.array items, ·)

/-- The entries of a table on one line and its end, after the opening brace. -/
def inlineTable? (value? : Reader Value) : Reader Value := fun s =>
  let item : Reader (Key × Value) := fun s =>
    (assignment? value? s).map fun (pair, rest) => (pair, skipSpaces rest)
  match separated item ',' s with
  | none => (expect? '}' (skipSpaces s)).map (.table [], ·)
  | some (pairs, rest) => do
    let rest ← expect? '}' rest
    let entries ← pairs.foldlM
      (fun es (pair : Key × Value) => Entries.assign? pair.1.path pair.1.name pair.2 es) []
    return (.table (Item.entryValues entries), rest)

/-- A value without brackets. -/
def flat? : Reader Value := fun s =>
  match s with
  | '"' :: _ => (quoted? s).map fun (text, rest) => (.string text, rest)
  | '\'' :: _ => (quoted? s).map fun (text, rest) => (.string text, rest)
  | _ => scalar? s

/-- A value with at most so many brackets in each other. -/
def value? : (depth : Nat) → Reader Value
  | 0 => flat?
  | depth + 1 => fun s =>
    match s with
    | '[' :: cs => array? (value? depth) cs
    | '{' :: cs => inlineTable? (value? depth) cs
    | _ => flat? s

/-! ## Statements -/

/-- A line of a document. -/
inductive Statement where
  | blank
  | assign (key : Key) (v : Value)
  | header (key : Key)
  | elementHeader (key : Key)

/-- The statement at the start of a text, which has no spaces in front. -/
def statement? : Reader Statement := fun s =>
  match s with
  | [] => some (.blank, [])
  | '[' :: '[' :: cs => do
    let (key, s) ← key? cs
    let s ← expect? ']' s
    let s ← expect? ']' s
    return (.elementHeader key, s)
  | '[' :: cs => do
    let (key, s) ← key? cs
    let s ← expect? ']' s
    return (.header key, s)
  | c :: _ =>
    if c == '#' || c == '\n' || c == '\r' then some (.blank, s)
    else (assignment? (value? (nestingLimit - 1)) s).map fun (pair, s) => (.assign pair.1 pair.2, s)

/-- The statement of a line, and the text after the line. -/
def line? : Reader Statement := fun s => do
  let (statement, s) ← statement? (skipSpaces s)
  let s ← lineEnd? s
  return (statement, s)

/-- The statements of a text. -/
def statements? (s : List Char) : Option (List Statement) :=
  if s.isEmpty then some []
  else
    match line? s with
    | some (statement, rest) =>
      if rest.length < s.length then (statements? rest).map (statement :: ·) else none
    | none => none
termination_by s.length

/-! ## Documents -/

/-- A document that is being read: its table, and the path of the table opened last. -/
structure State where
  entries : Entries := []
  current : List String := []

/-- Carries out a statement. -/
def State.run? (state : State) : Statement → Option State
  | .blank => some state
  | .assign key v =>
    (state.entries.assignIn? state.current key.path key.name v).map fun entries =>
      { state with entries }
  | .header key =>
    (state.entries.openTable? key.path key.name).map fun entries =>
      { entries, current := key.path ++ [key.name] }
  | .elementHeader key =>
    (state.entries.openElement? key.path key.name).map fun entries =>
      { entries, current := key.path ++ [key.name] }

/-- The text without the mark of its byte order. -/
def skipMark : List Char → List Char
  | '\ufeff' :: cs => cs
  | cs => cs

/-- The entries of the table that a document describes. -/
def read? (text : List Char) : Option (List (String × Value)) := do
  let statements ← statements? (skipMark text)
  let state ← statements.foldlM State.run? {}
  return Item.entryValues state.entries

end SourceEditor.Toml

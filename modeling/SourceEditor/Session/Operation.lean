import SourceEditor.Session.Editing

/-!
# Operations as values

What a user can ask of a session, as a value, and what the session answers. `Session.perform`
carries out one operation and `Session.run` several in a row; an operation that fails leaves the
session as it stood then, and the next one goes on from there.
-/

namespace SourceEditor

/-- Something that a user can ask of a session. -/
inductive Operation where
  | insert (offset : Nat) (text : List Char)
  | remove (offset count : Nat)
  | clear
  | load (text : List Char)
  | undo
  | redo
  | nextLine
  | splitLine
  | newLineBefore
  | toggleLineComment
  | setCaret (caret : Nat)
  | switchLanguage (fileName : List Char)
  | setLanguage (language : Option Language)
  | reload (options : Options)
  | reparse
  | syntaxTree
  | markSaved

/-- What a session answers. -/
inductive Answer where
  | done
  | language (language : Option Language)
  | runs (runs : List Run)
  | tree (tree : Option SyntaxTree)

namespace Session

variable {D : Type} [Surface D] (java : ExternalParser)

/-- Carries out an operation. -/
def perform : Operation → Update (Session D) Answer
  | .insert offset text => (fun _ => .done) <$> insert java offset text
  | .remove offset count => (fun _ => .done) <$> remove java offset count
  | .clear => (fun _ => .done) <$> clear java
  | .load text => (fun _ => .done) <$> load java text
  | .undo => (fun _ => .done) <$> undo java
  | .redo => (fun _ => .done) <$> redo java
  | .nextLine => (fun _ => .done) <$> nextLine java
  | .splitLine => (fun _ => .done) <$> splitLine java
  | .newLineBefore => (fun _ => .done) <$> newLineBefore java
  | .toggleLineComment => (fun _ => .done) <$> toggleLineComment java
  | .setCaret caret => (fun _ => .done) <$> setCaret caret
  | .switchLanguage fileName => .language <$> switchLanguage java fileName
  | .setLanguage language => (fun _ => .done) <$> setLanguage java language
  | .reload options => (fun _ => .done) <$> reload java options
  | .reparse => .runs <$> reparse java
  | .syntaxTree => .tree <$> syntaxTree java
  | .markSaved => (fun _ => .done) <$> markSaved

/-- Carries out operations one after the other, those that fail included. -/
def run (operations : List Operation) (s : Session D) : Session D :=
  operations.foldl (fun s operation => (perform java operation).final s) s

end Session

end SourceEditor

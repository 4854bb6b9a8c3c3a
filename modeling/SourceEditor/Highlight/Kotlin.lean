import SourceEditor.Highlight.Basic
import SourceEditor.Unicode.Uppercase

/-!
# Highlights of Kotlin

What a name in a Kotlin source stands for, told from the tokens around it: after `fun` it is a
function, before a parenthesized group a call, and so on. `Kotlin.highlight` is the rule for one
node of a token tree.
-/

namespace SourceEditor

/-- Whether a node is one of the given keywords. -/
def Cursor.isKeyword (source : List Char) (words : List String) (c : Cursor NodeInfo) : Bool :=
  c.kind == "keyword" && words.contains (String.ofList (c.label.text source))

namespace Kotlin

/-- Whether a name starts with a capital letter, its backticks apart. -/
def isCapitalized (text : List Char) : Bool :=
  (text.find? (· != '`')).any Unicode.isUppercase

/-- Whether the tokens before a parenthesized group, nearest first, make it the parameters of a
function: names, dots and operators that lead back to `fun` or `constructor`, and not to the name of
a class. -/
def endsFunctionHead (source : List Char) : List (Cursor NodeInfo) → Bool
  | [] => false
  | c :: cs =>
    if c.isKeyword source ["fun", "constructor"] then true
    else if c.kind == "identifier" && cs.head?.any (·.isKeyword source ["class"]) then false
    else if ["identifier", ".", "operator"].contains c.kind then endsFunctionHead source cs
    else false

/-- Whether a name is a parameter: a colon follows it, and the parenthesized group that it stands in
belongs to a function. -/
def isParameter (source : List Char) (c : Cursor NodeInfo) : Bool :=
  c.nextSignificant?.any (·.kind == ":") &&
    c.parent?.any fun group =>
      group.kind == "parenthesized" && endsFunctionHead source group.significantBefore

/-- Whether a name follows `fun Receiver.`, given the tokens before it, nearest first. -/
def isExtensionName (source : List Char) : List (Cursor NodeInfo) → Bool
  | dot :: receiver :: word :: _ =>
    dot.kind == "." && receiver.kind == "identifier" && word.isKeyword source ["fun"]
  | _ => false

/-- Whether a name is called: parentheses follow it directly, or it follows a dot and a block comes
next. -/
def isCalled (c : Cursor NodeInfo) : Bool :=
  c.nextSibling?.any (·.kind == "parenthesized") ||
    (c.prevSignificant?.any (·.kind == ".") && c.nextSignificant?.any (·.kind == "block"))

/-- The category of a name. -/
def nameCategory? (source : List Char) (c : Cursor NodeInfo) : Option Category :=
  let afterWord (words : List String) := c.prevSignificant?.any (·.isKeyword source words)
  let capitalized := isCapitalized (c.label.text source)
  if c.prevSibling?.any (·.kind == "@") then some .annotationName
  else if afterWord ["fun"] then
    if c.nextSignificant?.any (·.kind == ".") then some .typeName else some .functionDeclaration
  else if afterWord ["class", "interface", "object", "typealias"] then some .typeName
  else if afterWord ["val", "var"] then some .property
  else if isParameter source c then some .parameter
  else if isCalled c && isExtensionName source c.significantBefore then some .functionDeclaration
  else if isCalled c && !capitalized then some .functionCall
  else if capitalized then some .typeName
  else none

/-- Whether a node continues a dotted path. -/
def continuesPath (source : List Char) (c : Cursor NodeInfo) : Bool :=
  c.kind == "." || c.kind == "identifier" ||
    (c.kind == "operator" && c.label.text source == ['*'])

/-- The range of the dotted path that follows `package` or `import`. -/
def pathRange? (source : List Char) (c : Cursor NodeInfo) : Option Span :=
  match c.nextSignificant? with
  | none => none
  | some first =>
    if first.kind == "identifier" then
      let last := (first.after.takeWhile (continuesPath source)).getLast?.getD first
      some ⟨first.label.range.start, last.label.range.stop⟩
    else none

/-- The highlight of a node of a token tree. -/
def highlight (source : List Char) (c : Cursor NodeInfo) : Option Highlight :=
  if c.kind == "identifier" then (nameCategory? source c).map (⟨c.label.range, ·⟩)
  else if c.kind == "@" then
    match c.nextSibling? with
    | some name =>
      if name.kind == "identifier" then
        some ⟨⟨c.label.range.start, name.label.range.stop⟩, .annotationName⟩
      else none
    | none => none
  else if c.isKeyword source ["package", "import"] then
    (pathRange? source c).map (⟨·, .namespaceName⟩)
  else none

end Kotlin

end SourceEditor

import SourceEditor.Settings.Basic
import SourceEditor.Settings.Value

/-!
# Settings as tables

How settings are read from a table of values and written as one. What is not set is not written.
What a table does not mention has its default; a style that is listed starts from the plain one,
whatever the standard scheme has for its category. Settings and color schemes admit no other keys
than their own; styles and window bounds pass over those they do not know.
-/

namespace SourceEditor

namespace Color

def ofValue? (v : Value) : Option Color := v.string?.bind read?

def toValue (c : Color) : Value := .string c.toChars

end Color

namespace Style

def fields : List String := ["foreground", "background", "bold", "italic", "underline"]

def ofValue? (v : Value) : Option Style := do
  let es ← v.entries? fields
  let foreground ← Value.field? es "foreground" none (Value.optional? Color.ofValue?)
  let background ← Value.field? es "background" none (Value.optional? Color.ofValue?)
  let bold ← Value.field? es "bold" false Value.boolean?
  let italic ← Value.field? es "italic" false Value.boolean?
  let underline ← Value.field? es "underline" false Value.boolean?
  return { foreground, background, bold, italic, underline }

def table (s : Style) : List (String × Value) :=
  Value.optionalEntry "foreground" Color.toValue s.foreground ++
    Value.optionalEntry "background" Color.toValue s.background ++
    [("bold", .boolean s.bold), ("italic", .boolean s.italic), ("underline", .boolean s.underline)]

end Style

namespace Scheme

/-- A scheme that has the listed styles, and the standard ones for all other categories. -/
def ofStyles (styles : List (String × Style)) : Scheme :=
  ⟨fun c => (styles.lookup c.key).getD (standardStyle c)⟩

def ofValue? (v : Value) : Option Scheme := do
  let keys := Category.all.map Category.key
  let es ← v.entries? keys
  let styles ← es.mapM fun (key, v) =>
    if keys.contains key then (Style.ofValue? v).map (key, ·) else none
  return ofStyles styles

/-- A scheme as a table, with the style of every category. -/
def table (s : Scheme) : List (String × Value) :=
  Category.all.map fun c => (c.key, .table (s.style c).table)

end Scheme

namespace WindowBounds

def fields : List String := ["x", "y", "width", "height"]

/-- Reads an integer of thirty-two bits with a sign. -/
def signed? (v : Value) : Option Int32 :=
  (v.integer? (-0x80000000) 0x7fffffff).map Int32.ofInt

/-- Reads an integer of thirty-two bits without a sign. -/
def unsigned? (v : Value) : Option UInt32 :=
  (v.integer? 0 0xffffffff).map fun n => UInt32.ofNat n.toNat

def ofValue? (v : Value) : Option WindowBounds := do
  let es ← v.entries? fields
  let x ← Value.required? es "x" signed?
  let y ← Value.required? es "y" signed?
  let width ← Value.required? es "width" unsigned?
  let height ← Value.required? es "height" unsigned?
  return { x, y, width, height }

def table (b : WindowBounds) : List (String × Value) :=
  [("x", .integer b.x.toInt), ("y", .integer b.y.toInt), ("width", .integer b.width.toNat),
   ("height", .integer b.height.toNat)]

end WindowBounds

namespace Settings

def fields : List String :=
  ["highlight_token_based", "highlight_semantic_based", "tab_size", "indent_with_spaces",
   "undo_limit", "last_opened_file", "recent_files", "window_bounds", "colors"]

/-- The largest integer that a configuration file can hold. -/
def maxInteger : Nat := 0x7fffffffffffffff

def size? (v : Value) : Option Nat := (v.integer? 0 maxInteger).map Int.toNat

def path? (v : Value) : Option Path := v.string?.map Path.mk

def pathValue (p : Path) : Value := .string p.chars

/-- Reads settings from the entries of a table. -/
def ofTable? (es : List (String × Value)) : Option Settings := do
  guard (es.all fun e => fields.contains e.1)
  let tokenHighlighting ← Value.field? es "highlight_token_based" true Value.boolean?
  let semanticHighlighting ← Value.field? es "highlight_semantic_based" true Value.boolean?
  let tabSize ← Value.field? es "tab_size" 4 size?
  let indentWithSpaces ← Value.field? es "indent_with_spaces" false Value.boolean?
  let undoLimit ← Value.field? es "undo_limit" 100 size?
  let lastOpenedFile ← Value.field? es "last_opened_file" none (Value.optional? path?)
  let recentFiles ← Value.field? es "recent_files" [] (Value.list? path?)
  let windowBounds ← Value.field? es "window_bounds" none (Value.optional? WindowBounds.ofValue?)
  let colors ← Value.field? es "colors" .standard Scheme.ofValue?
  some
    { tokenHighlighting, semanticHighlighting, tabSize, indentWithSpaces, undoLimit
      lastOpenedFile, recentFiles, windowBounds, colors }

/-- The entries that are no tables. -/
def mainEntries (s : Settings) : List (String × Value) :=
  [("highlight_token_based", .boolean s.tokenHighlighting),
   ("highlight_semantic_based", .boolean s.semanticHighlighting),
   ("tab_size", .integer s.tabSize),
   ("indent_with_spaces", .boolean s.indentWithSpaces),
   ("undo_limit", .integer s.undoLimit)] ++
    Value.optionalEntry "last_opened_file" pathValue s.lastOpenedFile ++
    [("recent_files", .array (s.recentFiles.map pathValue))]

def table (s : Settings) : List (String × Value) :=
  s.mainEntries ++ Value.optionalEntry "window_bounds" (fun b => .table b.table) s.windowBounds ++
    [("colors", .table s.colors.table)]

/-- Settings as text in a format, if it can hold them. -/
def toText? (format : TableFormat) (s : Settings) : Option (List Char) := format.write? s.table

/-- Reads settings from text in a format. -/
def ofText? (format : TableFormat) (text : List Char) : Option Settings :=
  (format.read? text).bind ofTable?

end Settings

end SourceEditor

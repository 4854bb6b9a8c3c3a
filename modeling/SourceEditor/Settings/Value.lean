/-!
# Configuration values

What a configuration can say: tables of keys and values, lists, and scalars. No setting is a float
or a date, so of these only the kind is kept. Where a list stands for a record, an `array` may have
more items than the record has fields, and a `tuple` may not.

A `TableFormat` keeps tables as text.
-/

namespace SourceEditor

/-- A configuration value. -/
inductive Value where
  | null
  | boolean (b : Bool)
  | integer (n : Int)
  | float
  | string (chars : List Char)
  | date
  | array (items : List Value)
  | tuple (items : List Value)
  | table (entries : List (String × Value))
  deriving Repr, Inhabited

namespace Value

/-- The entries of a value that is read as a record with the given fields. A list gives the fields
in order, and a date counts as a table of which no key is known. -/
def entries? (fields : List String) : Value → Option (List (String × Value))
  | .table entries => some entries
  | .array items => some (fields.zip items)
  | .tuple items => if items.length ≤ fields.length then some (fields.zip items) else none
  | .date => some [("", .null)]
  | _ => none

def boolean? : Value → Option Bool
  | .boolean b => some b
  | _ => none

def string? : Value → Option (List Char)
  | .string cs => some cs
  | _ => none

/-- An integer between two bounds. -/
def integer? (low high : Int) : Value → Option Int
  | .integer n => if low ≤ n ∧ n ≤ high then some n else none
  | _ => none

/-- A value that may be null. -/
def optional? {α : Type} (read : Value → Option α) : Value → Option (Option α)
  | .null => some none
  | v => (read v).map some

/-- A list, each item of which is read. -/
def list? {α : Type} (read : Value → Option α) : Value → Option (List α)
  | .array items | .tuple items => items.mapM read
  | _ => none

/-- The field of a record, or a default where the record does not have it. -/
def field? {α : Type} (entries : List (String × Value)) (key : String) (default : α)
    (read : Value → Option α) : Option α :=
  match entries.lookup key with
  | some v => read v
  | none => some default

/-- A field that a record must have. -/
def required? {α : Type} (entries : List (String × Value)) (key : String)
    (read : Value → Option α) : Option α :=
  (entries.lookup key).bind read

/-- The entry of something that may be missing. -/
def optionalEntry {α : Type} (key : String) (write : α → Value) : Option α → List (String × Value)
  | some a => [(key, write a)]
  | none => []

end Value

/-- A format in which tables are kept as text. Not every table can be written, and not every text
describes one. -/
structure TableFormat where
  write? : List (String × Value) → Option (List Char)
  read? : List Char → Option (List (String × Value))

end SourceEditor

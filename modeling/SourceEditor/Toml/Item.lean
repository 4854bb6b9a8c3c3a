import SourceEditor.Settings.Value

/-!
# Tables under construction

The statements of a TOML document fill one table. Each table remembers how it came about, because
that decides what may still be added to it:

* a table that only stands on the way to another one may get a header of its own later, once;
* a table with a header can be extended by further headers below it, but not by dotted keys;
* a table made by a dotted key can be extended by such keys only.
-/

namespace SourceEditor.Toml

/-- How a table came about. -/
inductive Origin where
  /-- It has a header, or it is the document. -/
  | header
  /-- It stands on the way to a table with a header. -/
  | implied
  /-- It stands on the way to a dotted key. -/
  | dotted
  deriving DecidableEq, Repr

/-- What stands under a key. -/
inductive Item where
  | value (v : Value)
  | table (origin : Origin) (entries : List (String × Item))
  /-- A list of tables with headers, the last of which can still be extended. -/
  | tables (done : List (List (String × Item))) (last : List (String × Item))

/-- The entries of a table. -/
abbrev Entries := List (String × Item)

namespace Entries

/-- Puts another item under a key that is there. -/
def replace (es : Entries) (key : String) (item : Item) : Entries :=
  es.map fun e => if e.1 = key then (key, item) else e

/-- Puts an item under a new key. -/
def insertNew? (es : Entries) (key : String) (item : Item) : Option Entries :=
  match es.lookup key with
  | none => some (es ++ [(key, item)])
  | some _ => none

/-- Changes the table at the end of a path. Tables that are missing on the way are made, with the
given origin; a value is no table; and a way that makes dotted tables leads through no table with a
header. -/
def updateAt? (made : Origin) (change : Origin → Entries → Option Entries) :
    (path : List String) → (origin : Origin) → Entries → Option Entries
  | [], origin, es => change origin es
  | key :: path, _, es =>
    match es.lookup key with
    | none => (updateAt? made change path made []).map fun inner => es ++ [(key, .table made inner)]
    | some (.value _) => none
    | some (.table origin inner) =>
      if made = .dotted ∧ origin = .header then none
      else
        (updateAt? made change path origin inner).map fun inner =>
          es.replace key (.table origin inner)
    | some (.tables done last) =>
      (updateAt? made change path .header last).map fun last => es.replace key (.tables done last)

/-- Gives a value to a key, in a table that dotted keys lead to. A table at the end of a longer path
must have been made by dotted keys. -/
def assign? (path : List String) (key : String) (v : Value) (es : Entries) : Option Entries :=
  updateAt? .dotted
    (fun origin inner =>
      if path ≠ [] ∧ origin ≠ .dotted then none else inner.insertNew? key (.value v))
    path .header es

/-- Opens the table of a header. -/
def openTable? (path : List String) (key : String) (es : Entries) : Option Entries :=
  updateAt? .implied
    (fun _ inner =>
      match inner.lookup key with
      | none => some (inner ++ [(key, .table .header [])])
      | some (.table .implied entries) => some (inner.replace key (.table .header entries))
      | some _ => none)
    path .header es

/-- Opens one more table of a list. -/
def openElement? (path : List String) (key : String) (es : Entries) : Option Entries :=
  updateAt? .implied
    (fun _ inner =>
      match inner.lookup key with
      | none => some (inner ++ [(key, .tables [] [])])
      | some (.tables done last) => some (inner.replace key (.tables (done ++ [last]) []))
      | some _ => none)
    path .header es

/-- Gives a value to a key in the table that was opened last. -/
def assignIn? (current path : List String) (key : String) (v : Value) (es : Entries) :
    Option Entries :=
  updateAt? .implied (fun _ inner => inner.assign? path key v) current .header es

end Entries

mutual

/-- The value that an item stands for. -/
def Item.toValue : Item → Value
  | .value v => v
  | .table _ es => .table (Item.entryValues es)
  | .tables done last => .array (Item.tableValues done ++ [.table (Item.entryValues last)])

/-- The values of entries. -/
def Item.entryValues : List (String × Item) → List (String × Value)
  | [] => []
  | (key, item) :: es => (key, item.toValue) :: Item.entryValues es

/-- The values of tables. -/
def Item.tableValues : List (List (String × Item)) → List Value
  | [] => []
  | es :: rest => .table (Item.entryValues es) :: Item.tableValues rest

end

end SourceEditor.Toml

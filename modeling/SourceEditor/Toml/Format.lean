import SourceEditor.Toml.Document
import SourceEditor.Toml.Section

/-!
# TOML as a format for tables

A table is written as sections: its own with the entries that are no tables, and then those of its
tables, one after the other. A table that has nothing but tables in it gets no header.
-/

namespace SourceEditor.Toml

/-- The literal of a value. Integers of more than sixty-four bits have none, and neither have lists
of anything but texts. -/
def Literal.ofValue? : Value → Option Literal
  | .boolean b => some (.boolean b)
  | .integer n =>
    if -0x8000000000000000 ≤ n ∧ n < 0x8000000000000000 then some (.integer n) else none
  | .string text => some (.string text)
  | .array items => (items.mapM Value.string?).map .strings
  | _ => none

/-- The lines of the entries that are no tables. -/
def pairs (entries : List (String × Value)) : List (String × Literal) :=
  entries.filterMap fun (key, v) => (Literal.ofValue? v).map (key, ·)

mutual

/-- The sections of the table with the given path. -/
def valueSections (path : List String) : Value → List Section
  | .table entries =>
    let tables := tableSections path entries
    if (pairs entries).isEmpty && !tables.isEmpty then tables
    else ⟨path, pairs entries⟩ :: tables
  | _ => []

/-- The sections of the tables among entries. -/
def tableSections (path : List String) : List (String × Value) → List Section
  | [] => []
  | (key, v) :: entries => valueSections (path ++ [key]) v ++ tableSections path entries

end

mutual

/-- Whether all that a value holds can be written. -/
def isWritable : Value → Bool
  | .table entries => areWritable entries
  | v => (Literal.ofValue? v).isSome

def areWritable : List (String × Value) → Bool
  | [] => true
  | (_, v) :: entries => isWritable v && areWritable entries

end

/-- The text of a table. -/
def write? (entries : List (String × Value)) : Option (List Char) :=
  if areWritable entries then
    some (writeSections (⟨[], pairs entries⟩ :: tableSections [] entries))
  else none

def format : TableFormat where
  write? := write?
  read? := read?

end SourceEditor.Toml

import SourceEditor.Settings.Value

/-!
# Formats that keep tables

What may be asked of a format for tables is that it gives back what it was given. No format does
this for all tables: there are values that it does not know, and it may put entries into another
order. `Storable` tables are simple enough for every format. They hold plain values under names, and
behind these values further tables. `TableFormat.Faithful` is the law that they are written and read
back.
-/

namespace SourceEditor

/-- A truth value, an integer of sixty-four bits, a text or a list of texts. -/
def Value.IsPlain : Value → Prop
  | .boolean _ | .string _ => True
  | .integer n => -0x8000000000000000 ≤ n ∧ n < 0x8000000000000000
  | .array items => ∀ item ∈ items, ∃ text, item = .string text
  | _ => False

/-- The entry of a table in another one. -/
def Value.tableEntry (table : String × List (String × Value)) : String × Value :=
  (table.1, .table table.2)

/-- A key of letters and underscores. -/
def IsName (key : String) : Prop :=
  key.toList ≠ [] ∧ ∀ c ∈ key.toList, c.isAlpha = true ∨ c = '_'

instance (key : String) : Decidable (IsName key) :=
  decidable_of_iff (key.toList ≠ [] ∧ key.toList.all (fun c => c.isAlpha || c == '_') = true)
    (and_congr_right fun _ => by simp)

/-- Tables of plain values under distinct names, with tables of the same kind behind them. At most
`depth` of them lie in each other. -/
inductive Storable : (depth : Nat) → (table : List (String × Value)) → Prop
  | intro {depth : Nat} (values : List (String × Value))
      (tables : List (String × List (String × Value)))
      (names : ∀ key ∈ values.map Prod.fst ++ tables.map Prod.fst, IsName key)
      (nodup : (values.map Prod.fst ++ tables.map Prod.fst).Nodup)
      (plain : ∀ e ∈ values, e.2.IsPlain) (deep : tables ≠ [] → 0 < depth)
      (inner : ∀ t ∈ tables, Storable (depth - 1) t.2) :
      Storable depth (values ++ tables.map Value.tableEntry)

/-- A table without tables in it. -/
theorem Storable.of_plain {table : List (String × Value)} {fields : List String}
    (hkeys : (table.map Prod.fst).Sublist fields) (hnames : ∀ key ∈ fields, IsName key)
    (hnodup : fields.Nodup) (hplain : ∀ e ∈ table, e.2.IsPlain) (depth : Nat) :
    Storable depth table := by
  have hstorable : Storable depth (table ++ [].map Value.tableEntry) := by
    refine .intro table [] ?_ ?_ hplain (absurd rfl) (by simp)
    · simpa using fun key hkey => hnames key (hkeys.subset hkey)
    · simpa using hkeys.nodup hnodup
  simpa using hstorable

namespace TableFormat

/-- The format writes a table, and reads it from what it wrote. -/
def Restores (format : TableFormat) (table : List (String × Value)) : Prop :=
  ∃ text, format.write? table = some text ∧ format.read? text = some table

/-- The format restores all tables with at most `depth` tables in each other. -/
def Faithful (format : TableFormat) (depth : Nat) : Prop :=
  ∀ table, Storable depth table → format.Restores table

end TableFormat

end SourceEditor

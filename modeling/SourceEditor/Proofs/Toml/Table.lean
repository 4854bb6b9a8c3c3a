import SourceEditor.Proofs.Settings.Format
import SourceEditor.Proofs.Toml.Document
import SourceEditor.Toml.Format
import Mathlib.Data.List.Basic

/-!
# TOML keeps tables

A storable table is written as sections and read back as itself (`faithful_format`). The sections of
a table that lies in another one add it to the entries of that one (`AddsTable`), wherever it lies.
This is shown from the inside out, for a table once it is known for the tables in it.

A table with nothing but tables in it has no header. It comes into being with the header of the
first table below it, and from then on it is as if it had been there before (`run_header_missing`).
-/

namespace SourceEditor.Toml

/-! ## Entries that are no tables -/

theorem IsBareKey.of_isName {key : String} (h : IsName key) : IsBareKey key := by
  refine ⟨h.1, fun c hc => ?_⟩
  rcases h.2 c hc with halpha | rfl
  · simp [isBareKeyChar, Char.isAlphanum, halpha]
  · decide

theorem exists_texts {items : List Value} (h : ∀ item ∈ items, ∃ text, item = .string text) :
    ∃ texts : List (List Char), items = texts.map Value.string := by
  induction items with
  | nil => exact ⟨[], rfl⟩
  | cons item items ih =>
    obtain ⟨⟨text, rfl⟩, hitems⟩ := List.forall_mem_cons.mp h
    obtain ⟨texts, rfl⟩ := ih hitems
    exact ⟨text :: texts, rfl⟩

/-- A plain value has a literal, which can be read back. -/
theorem exists_literal {v : Value} (h : v.IsPlain) :
    ∃ l, Literal.ofValue? v = some l ∧ l.toValue = v ∧ l.Fits := by
  cases v with
  | boolean b => exact ⟨.boolean b, rfl, rfl, trivial⟩
  | integer n => exact ⟨.integer n, if_pos h, rfl, h⟩
  | string text => exact ⟨.string text, rfl, rfl, trivial⟩
  | array items =>
    obtain ⟨texts, rfl⟩ := exists_texts h
    refine ⟨.strings texts, ?_, rfl, trivial⟩
    have hread : (texts.map Value.string).mapM Value.string? = some texts := by
      rw [List.mapM_map]
      exact List.mapM_pure.trans (congrArg some (List.map_id texts))
    rw [Literal.ofValue?, hread, Option.map_some]
  | null | float | date | tuple _ | table _ => exact absurd h id

/-- What is read for a key with its value. -/
def Section.value (pair : String × Literal) : String × Value := (pair.1, pair.2.toValue)

variable {values : List (String × Value)}

/-- The lines of plain values say the values. -/
theorem map_value_pairs (h : ∀ e ∈ values, e.2.IsPlain) :
    (pairs values).map Section.value = values ∧ ∀ pair ∈ pairs values, pair.2.Fits := by
  induction values with
  | nil => exact ⟨rfl, by simp [pairs]⟩
  | cons e values ih =>
    obtain ⟨hplain, hvalues⟩ := List.forall_mem_cons.mp h
    obtain ⟨l, hl, hvalue, hfits⟩ := exists_literal hplain
    have hcons : pairs (e :: values) = (e.1, l) :: pairs values := by
      simp [pairs, hl]
    obtain ⟨hmap, hall⟩ := ih hvalues
    rw [hcons, List.map_cons, hmap, Section.value, hvalue]
    exact ⟨rfl, List.forall_mem_cons.mpr ⟨hfits, hall⟩⟩

theorem pairs_append (values : List (String × Value))
    (tables : List (String × List (String × Value))) :
    pairs (values ++ tables.map Value.tableEntry) = pairs values := by
  have hnone : pairs (tables.map Value.tableEntry) = [] := by
    rw [pairs, List.filterMap_map]
    exact List.filterMap_eq_nil_iff.mpr fun t _ => rfl
  rw [pairs, List.filterMap_append, ← pairs, ← pairs, hnone, List.append_nil]

theorem valueSections_of_isPlain {v : Value} (h : v.IsPlain) (path : List String) :
    valueSections path v = [] := by
  cases v with
  | table _ => exact absurd h id
  | _ => rfl

theorem tableSections_append (path : List String) (h : ∀ e ∈ values, e.2.IsPlain)
    (tables : List (String × List (String × Value))) :
    tableSections path (values ++ tables.map Value.tableEntry) =
      tables.flatMap fun t => valueSections (path ++ [t.1]) (.table t.2) := by
  induction values with
  | nil =>
    induction tables with
    | nil => rfl
    | cons t tables ih => rw [List.flatMap_cons, ← ih]; rfl
  | cons e values ih =>
    obtain ⟨hplain, hvalues⟩ := List.forall_mem_cons.mp h
    rw [List.cons_append, tableSections, valueSections_of_isPlain hplain, List.nil_append,
      ih hvalues]

theorem areWritable_eq (entries : List (String × Value)) :
    areWritable entries = entries.all fun e => isWritable e.2 := by
  induction entries with
  | nil => rfl
  | cons e entries ih => rw [areWritable, List.all_cons, ih]

theorem isWritable_of_isPlain {v : Value} (h : v.IsPlain) : isWritable v = true := by
  obtain ⟨l, hl, -, -⟩ := exists_literal h
  cases v with
  | table _ => exact absurd h id
  | _ => simp only [isWritable, hl, Option.isSome_some]

variable {depth : Nat} {entries : List (String × Value)}

theorem areWritable_of_storable (h : Storable depth entries) : areWritable entries = true := by
  induction h with
  | intro values tables _ _ plain _ _ ih =>
    rw [areWritable_eq, List.all_append, Bool.and_eq_true, List.all_map, List.all_eq_true,
      List.all_eq_true]
    exact ⟨fun e he => isWritable_of_isPlain (plain e he), fun t ht => ih t ht⟩

/-! ## Sections are readable -/

/-- The lines of a storable table need no quotes and can be held. -/
theorem readable_of_storable (h : Storable depth entries) {path : List String}
    (hpath : ∀ key ∈ path, IsBareKey key) (hlength : path.length < nestingLimit) :
    Section.Readable ⟨path, pairs entries⟩ := by
  obtain ⟨values, tables, names, -, plain, -, -⟩ := h
  obtain ⟨hmap, hfits⟩ := map_value_pairs plain
  rw [pairs_append]
  refine ⟨hpath, hlength, fun pair hpair => IsBareKey.of_isName (names _ ?_), hfits⟩
  have hvalue : Section.value pair ∈ values := hmap ▸ List.mem_map_of_mem hpair
  exact List.mem_append_left _ (List.mem_map_of_mem hvalue)

theorem readable_of_mem_tableSections (h : Storable depth entries) {path : List String}
    (hpath : ∀ key ∈ path, IsBareKey key) (hlength : path.length + depth < nestingLimit) :
    ∀ s ∈ tableSections path entries, s.Readable := by
  induction h generalizing path with
  | @intro depth values tables names _ plain deep inner ih =>
    intro s hs
    rw [tableSections_append path plain] at hs
    obtain ⟨t, ht, hs⟩ := List.mem_flatMap.mp hs
    have hpos := deep (List.ne_nil_of_mem ht)
    have hname := IsBareKey.of_isName (names t.1 (List.mem_append_right _ (List.mem_map_of_mem ht)))
    have hpath' : ∀ key ∈ path ++ [t.1], IsBareKey key := by
      simpa [or_imp, forall_and] using ⟨hpath, hname⟩
    have hlength' : (path ++ [t.1]).length + (depth - 1) < nestingLimit := by
      rw [List.length_append, List.length_singleton]
      omega
    rw [valueSections] at hs
    split at hs
    · exact ih t ht hpath' hlength' s hs
    · rcases List.mem_cons.mp hs with rfl | hs
      · exact readable_of_storable (inner t ht) hpath' (by omega)
      · exact ih t ht hpath' hlength' s hs

/-! ## Sections add tables -/

/-- A table that is missing in the one that was opened last is made on the way to a header, as if it
were there without entries. -/
theorem Entries.updateAt?_nest_missing {levels : List Level} (h : Unique levels) {name : String}
    {inner : Entries} (hname : inner.lookup name = none)
    (change : Origin → Entries → Option Entries) (more : List String) (outer : Origin) :
    updateAt? .implied change (levels.map Level.key ++ name :: more) outer (nest levels inner) =
      updateAt? .implied change (levels.map Level.key ++ name :: more) outer
        (nest levels (inner ++ [(name, .table .implied [])])) := by
  induction levels generalizing outer with
  | nil => exact updateAt?_missing hname change more outer
  | cons level levels ih =>
    obtain ⟨hlevel, hlevels⟩ := List.forall_mem_cons.mp h
    rw [nest, nest, List.map_cons, List.cons_append, updateAt?_last hlevel,
      updateAt?_last hlevel, ih hlevels]

theorem run_header_missing {levels : List Level} (h : Unique levels) {name : String}
    {inner : Entries} (hname : inner.lookup name = none) (more : List String) (key : String)
    (current : List String) :
    State.run? ⟨nest levels inner, current⟩
        (.header ⟨levels.map Level.key ++ [name] ++ more, key⟩) =
      State.run? ⟨nest (levels ++ [⟨inner, name, .implied⟩]) [], current⟩
        (.header ⟨levels.map Level.key ++ [name] ++ more, key⟩) := by
  rw [nest_concat, List.append_assoc, List.singleton_append]
  simp only [State.run?, Entries.openTable?, Entries.updateAt?_nest_missing h hname]

/-- Statements that start with a header below a path. -/
def OpensBelow (path : List String) (statements : List Statement) : Prop :=
  ∃ more key rest, statements = .blank :: .header ⟨path ++ more, key⟩ :: rest

/-- From such statements on it makes no difference whether the table was there before. -/
theorem OpensBelow.foldlM_eq {levels : List Level} {name : String} {statements : List Statement}
    (hopens : OpensBelow (levels.map Level.key ++ [name]) statements) (h : Unique levels)
    {inner : Entries} (hname : inner.lookup name = none) (current : List String) :
    statements.foldlM State.run? ⟨nest levels inner, current⟩ =
      statements.foldlM State.run? ⟨nest (levels ++ [⟨inner, name, .implied⟩]) [], current⟩ := by
  obtain ⟨more, key, rest, rfl⟩ := hopens
  have hblank (state : State) : state.run? .blank = some state := rfl
  rw [foldlM_cons_of_eq (hblank _), foldlM_cons_of_eq (hblank _), List.foldlM_cons,
    List.foldlM_cons, run_header_missing h hname]

theorem opensBelow_flatMap {path : List String} {tables : List (String × List (String × Value))}
    (hne : tables ≠ []) (h : ∀ t ∈ tables, OpensBelow path
      ((valueSections (path ++ [t.1]) (.table t.2)).flatMap Section.statements)) :
    OpensBelow path ((tables.flatMap fun t => valueSections (path ++ [t.1]) (.table t.2)).flatMap
      Section.statements) := by
  obtain ⟨t, tables, rfl⟩ := List.exists_cons_of_ne_nil hne
  obtain ⟨more, key, rest, heq⟩ := h t List.mem_cons_self
  rw [List.flatMap_cons, List.flatMap_append, heq]
  exact ⟨more, key, _, rfl⟩

theorem statements_concat (path : List String) (name : String) (pairs : List (String × Literal)) :
    Section.statements ⟨path ++ [name], pairs⟩ =
      .blank :: .header ⟨path, name⟩ :: pairs.map Section.assignment := by
  simp [Section.statements, Section.headerStatements]

/-- The sections of a table start with its header, or with one below it. -/
theorem opensBelow_valueSections (h : Storable depth entries) (path : List String)
    (name : String) :
    OpensBelow path
      ((valueSections (path ++ [name]) (.table entries)).flatMap Section.statements) := by
  induction h generalizing path name with
  | intro values tables _ _ plain _ _ ih =>
    rw [valueSections, tableSections_append _ plain]
    split
    · next hempty =>
      have hne : tables ≠ [] := by
        rintro rfl
        simp at hempty
      obtain ⟨more, key, rest, heq⟩ :=
        opensBelow_flatMap hne fun t ht => ih t ht (path ++ [name]) t.1
      exact ⟨name :: more, key, rest, by rw [heq, List.append_assoc, List.singleton_append]⟩
    · rw [List.flatMap_cons, statements_concat]
      exact ⟨[], name, _, by rw [List.append_nil]; rfl⟩

/-- The sections of a table add it to the entries of the table around it. -/
def AddsTable (entries : List (String × Value)) : Prop :=
  ∀ {levels : List Level}, Unique levels → ∀ {name : String} {inner : Entries},
    inner.lookup name = none → ∀ current, ∃ item last,
      ((valueSections (levels.map Level.key ++ [name]) (.table entries)).flatMap
          Section.statements).foldlM State.run? ⟨nest levels inner, current⟩ =
        some ⟨nest levels (inner ++ [(name, item)]), last⟩ ∧
      item.toValue = .table entries

/-- Tables are added one after the other. -/
theorem exists_run_tables {levels : List Level} (h : Unique levels)
    {tables : List (String × List (String × Value))} (htables : ∀ t ∈ tables, AddsTable t.2)
    {inner : Entries} (hnames : (inner.map Prod.fst ++ tables.map Prod.fst).Nodup)
    (current : List String) :
    ∃ items last,
      ((tables.flatMap fun t => valueSections (levels.map Level.key ++ [t.1]) (.table t.2)).flatMap
          Section.statements).foldlM State.run? ⟨nest levels inner, current⟩ =
        some ⟨nest levels (inner ++ items), last⟩ ∧
      Item.entryValues items = tables.map Value.tableEntry := by
  induction tables generalizing inner current with
  | nil => exact ⟨[], current, by simp, rfl⟩
  | cons t tables ih =>
    obtain ⟨ht, htables⟩ := List.forall_mem_cons.mp htables
    have hname : inner.lookup t.1 = none := Entries.lookup_eq_none_of_nodup hnames (by simp)
    obtain ⟨item, next, hrun, hitem⟩ := ht h hname current
    have hnames' : ((inner ++ [(t.1, item)]).map Prod.fst ++ tables.map Prod.fst).Nodup := by
      simpa using hnames
    obtain ⟨items, last, hrest, hitems⟩ := ih htables hnames' next
    refine ⟨(t.1, item) :: items, last, ?_, ?_⟩
    · rw [List.flatMap_cons, List.flatMap_append, List.foldlM_append, hrun]
      refine hrest.trans ?_
      rw [List.append_assoc, List.singleton_append]
    · rw [Item.entryValues, hitem, hitems]
      rfl

/-- What pairs and tables build, as values. -/
theorem entryValues_append (h : (pairs values).map Section.value = values) {items : Entries}
    {tables : List (String × List (String × Value))}
    (hitems : Item.entryValues items = tables.map Value.tableEntry) :
    Item.entryValues ((pairs values).map Section.entry ++ items) =
      values ++ tables.map Value.tableEntry := by
  rw [entryValues_eq, List.map_append, ← entryValues_eq items, hitems, List.map_map]
  exact congrArg (· ++ _) h

theorem nodup_pairs (h : (pairs values).map Section.value = values)
    {tables : List (String × List (String × Value))}
    (nodup : (values.map Prod.fst ++ tables.map Prod.fst).Nodup) :
    (((pairs values).map Section.entry).map Prod.fst ++ tables.map Prod.fst).Nodup := by
  rw [← h, List.map_map] at nodup
  rwa [List.map_map]

/-- **A storable table is added by its sections**, at every depth. -/
theorem addsTable_of_storable (h : Storable depth entries) : AddsTable entries := by
  induction h with
  | intro values tables _ nodup plain _ inner ih =>
    intro levels hlevels name around hname current
    obtain ⟨hvalues, -⟩ := map_value_pairs plain
    have hkeys := nodup_pairs hvalues nodup
    rw [valueSections, tableSections_append _ plain, pairs_append]
    split
    · next hempty =>
      -- without a header, the table is there once the first table in it is opened
      simp only [Bool.and_eq_true, List.isEmpty_iff, Bool.not_eq_true',
        List.isEmpty_eq_false_iff] at hempty
      have hne : tables ≠ [] := fun hnil => hempty.2 (by rw [hnil, List.flatMap_nil])
      have hlevels' : Unique (levels ++ [⟨around, name, .implied⟩]) := hlevels.concat hname
      obtain ⟨items, last, hrun, hitems⟩ := exists_run_tables hlevels' ih hkeys current
      rw [List.map_append, hempty.1] at hrun
      have hopens := opensBelow_flatMap hne fun t ht =>
        opensBelow_valueSections (inner t ht) (levels.map Level.key ++ [name]) t.1
      refine ⟨.table .implied items, last, ?_, ?_⟩
      · rw [hopens.foldlM_eq hlevels hname]
        exact hrun.trans (by rw [nest_concat]; rfl)
      · have hbuilt := entryValues_append hvalues hitems
        rw [hempty.1] at hbuilt
        exact congrArg Value.table hbuilt
    · have hlevels' : Unique (levels ++ [⟨around, name, .header⟩]) := hlevels.concat hname
      have hpairs := run_pairs hlevels' (pairs values) []
        (by simpa [Section.entry, Function.comp_def] using (List.nodup_append.mp hkeys).1)
      obtain ⟨items, last, hrun, hitems⟩ := exists_run_tables hlevels' ih hkeys
        (levels.map Level.key ++ [name])
      rw [List.map_append] at hpairs hrun
      refine ⟨.table .header ((pairs values).map Section.entry ++ items), last, ?_,
        congrArg Value.table (entryValues_append hvalues hitems)⟩
      rw [List.flatMap_cons, statements_concat, List.cons_append, List.cons_append,
        foldlM_cons_of_eq rfl, foldlM_cons_of_eq (run_header hlevels hname current),
        List.foldlM_append]
      refine (congrArg (· >>= _) hpairs).trans (hrun.trans ?_)
      rw [nest_concat]

/-! ## Documents -/

/-- **TOML is a faithful format** for tables that are not nested too deep. -/
theorem faithful_format (hdepth : depth < nestingLimit) : format.Faithful depth := by
  intro entries h
  have hwritable := areWritable_of_storable h
  have hreadable : ∀ s ∈ ⟨[], pairs entries⟩ :: tableSections [] entries, s.Readable :=
    List.forall_mem_cons.mpr ⟨readable_of_storable h (by simp) (by decide),
      readable_of_mem_tableSections h (by simp) (by simpa using hdepth)⟩
  refine ⟨_, if_pos hwritable, ?_⟩
  obtain ⟨values, tables, -, nodup, plain, -, inner⟩ := h
  obtain ⟨hvalues, -⟩ := map_value_pairs plain
  have hkeys := nodup_pairs hvalues nodup
  have hpairs := run_pairs unique_nil (pairs values) []
    (by simpa [Section.entry, Function.comp_def] using (List.nodup_append.mp hkeys).1)
  obtain ⟨items, last, hrun, hitems⟩ := exists_run_tables unique_nil
    (fun t ht => addsTable_of_storable (inner t ht)) hkeys []
  have hbuild : ((⟨[], pairs (values ++ tables.map Value.tableEntry)⟩ ::
      tableSections [] (values ++ tables.map Value.tableEntry)).flatMap
        Section.statements).foldlM State.run? {} =
      some ⟨(pairs values).map Section.entry ++ items, last⟩ := by
    rw [pairs_append, tableSections_append [] plain, List.flatMap_cons, List.foldlM_append]
    exact (congrArg (· >>= _) hpairs).trans hrun
  exact (read?_writeSections hreadable hbuild).trans
    (congrArg some (entryValues_append hvalues hitems))

end SourceEditor.Toml

import SourceEditor.Proofs.Style.Color
import SourceEditor.Proofs.Toml.Table
import SourceEditor.Settings.Table
import Mathlib.Data.List.Nodup

/-!
# Settings survive a save and a load

What is written for settings is read as the same settings (`Settings.ofText?_toText?`), in every
format that keeps tables. There are two steps. Settings are read from their table
(`Settings.ofTable?_table`), and their table is one that a format can be asked to keep
(`Settings.storable_table`).

What is not set is not written, and what a table does not mention is filled in from defaults when it
is read. The two agree because each level has the default that its writer leaves out: a style that
is listed starts from the plain one and not from that of the standard scheme, and all styles are
listed. So a color that is not set stays so, also where the standard scheme has one.
-/

namespace SourceEditor

/-! ## Settings are read from their table -/

theorem Color.ofValue?_toValue (c : Color) : ofValue? c.toValue = some c := by
  rw [ofValue?, toValue, Value.string?, Option.bind_some, read?_toChars]

/-- A style is read from its table, unset colors included. -/
theorem Style.ofValue?_table (s : Style) : ofValue? (.table s.table) = some s := by
  obtain ⟨foreground, background, bold, italic, underline⟩ := s
  have hcolor (c : Color) : Value.optional? Color.ofValue? c.toValue = some (some c) := by
    rw [← Option.map_some, ← c.ofValue?_toValue]
    rfl
  cases foreground <;> cases background <;>
    simp [ofValue?, table, Value.optionalEntry, Value.entries?, Value.field?, List.lookup_cons,
      Value.boolean?, hcolor]

namespace Scheme

theorem nodup_keys : (Category.all.map Category.key).Nodup := by decide

/-- The style that is listed for a category. -/
theorem lookup_key (style : Category → Style) (c : Category) :
    (Category.all.map fun c => (c.key, style c)).lookup c.key = some (style c) := by
  have hkey (d : Category) (h : d.key = c.key) : d = c :=
    List.inj_on_of_nodup_map nodup_keys d.mem_all c.mem_all h
  have hlookup (categories : List Category) (hc : c ∈ categories) :
      (categories.map fun c => (c.key, style c)).lookup c.key = some (style c) := by
    induction categories with
    | nil => cases hc
    | cons d categories ih =>
      rw [List.map_cons, List.lookup_cons]
      by_cases hd : d = c
      · simp [hd]
      · have hne : (c.key == d.key) = false := beq_eq_false_iff_ne.mpr fun h => hd (hkey d h.symm)
        rw [hne]
        exact ih ((List.mem_cons.mp hc).resolve_left (Ne.symm hd))
  exact hlookup Category.all c.mem_all

/-- A scheme is read from its table. All categories are listed, so no standard style is taken. -/
theorem ofValue?_table (s : Scheme) : ofValue? (.table s.table) = some s := by
  have hlisted (c : Category) : (Category.all.map Category.key).contains c.key = true := by
    simpa using ⟨c, c.mem_all, rfl⟩
  have hread : s.table.mapM
      (fun entry : String × Value =>
        if (Category.all.map Category.key).contains entry.1 then
          (Style.ofValue? entry.2).map (entry.1, ·)
        else none) =
      some (Category.all.map fun c => (c.key, s.style c)) := by
    rw [table, List.mapM_map]
    refine Eq.trans (congrArg (List.mapM · Category.all) (funext fun c => ?_)) List.mapM_pure
    simp only [Function.comp_apply, hlisted, if_true, Style.ofValue?_table, Option.map_some]
    rfl
  have hstyles : ofStyles (Category.all.map fun c => (c.key, s.style c)) = s := by
    ext c : 2
    simp only [ofStyles, lookup_key, Option.getD_some]
  rw [ofValue?]
  simp only [Value.entries?, Option.bind_eq_bind, Option.bind_some]
  rw [hread, Option.bind_some, hstyles]
  rfl

end Scheme

namespace WindowBounds

theorem signed?_toInt (x : Int32) : signed? (.integer x.toInt) = some x := by
  have hle := x.le_toInt
  have hlt := x.toInt_lt
  rw [signed?, Value.integer?, if_pos (by omega), Option.map_some, Int32.ofInt_toInt]

theorem unsigned?_toNat (x : UInt32) : unsigned? (.integer x.toNat) = some x := by
  have hlt := x.toNat_lt
  rw [unsigned?, Value.integer?, if_pos (by omega), Option.map_some, Int.toNat_natCast,
    UInt32.ofNat_toNat]

theorem ofValue?_table (b : WindowBounds) : ofValue? (.table b.table) = some b := by
  simp [ofValue?, table, Value.entries?, Value.required?, List.lookup_cons, signed?_toInt,
    unsigned?_toNat]

end WindowBounds

namespace Settings

theorem size?_of_le {n : Nat} (h : n ≤ maxInteger) : size? (.integer n) = some n := by
  rw [size?, Value.integer?, if_pos (by omega), Option.map_some, Int.toNat_natCast]

theorem list?_path? (files : List Path) :
    Value.list? path? (.array (files.map pathValue)) = some files := by
  rw [Value.list?, List.mapM_map]
  exact List.mapM_pure.trans (congrArg some (List.map_id files))

theorem optional?_bounds (b : WindowBounds) :
    Value.optional? WindowBounds.ofValue? (.table b.table) = some (some b) := by
  rw [← Option.map_some, ← b.ofValue?_table]
  rfl

/-- Settings are read from their table. -/
theorem ofTable?_table {s : Settings} (htab : s.tabSize ≤ maxInteger)
    (hundo : s.undoLimit ≤ maxInteger) : ofTable? s.table = some s := by
  obtain ⟨token, semantic, tab, spaces, undo, last, recent, bounds, colors⟩ := s
  have hpath (p : Path) : Value.optional? path? (pathValue p) = some (some p) := rfl
  simp only at htab hundo
  cases last <;> cases bounds <;>
    simp [ofTable?, table, mainEntries, Value.optionalEntry, Value.field?, List.lookup_cons,
      Value.boolean?, fields, size?_of_le htab, size?_of_le hundo, hpath, list?_path?,
      optional?_bounds, Scheme.ofValue?_table, guard]

end Settings

/-! ## Formats can keep the table -/

namespace Value

variable {α : Type} {key : String} {write : α → Value}

theorem keys_optionalEntry_sublist (a : Option α) :
    ((optionalEntry key write a).map Prod.fst).Sublist [key] := by
  cases a with
  | none => exact List.nil_sublist _
  | some a => exact List.Sublist.refl _

theorem isPlain_of_mem_optionalEntry (h : ∀ a, (write a).IsPlain) {a : Option α} :
    ∀ e ∈ optionalEntry key write a, e.2.IsPlain := by
  intro e he
  cases a with
  | none => cases he
  | some a =>
    obtain rfl := List.mem_singleton.mp he
    exact h a

end Value

theorem Style.storable_table (s : Style) (depth : Nat) : Storable depth s.table := by
  have hkeys : (s.table.map Prod.fst).Sublist fields := by
    rw [table, List.map_append, List.map_append]
    exact ((Value.keys_optionalEntry_sublist s.foreground).append
      (Value.keys_optionalEntry_sublist s.background)).append (List.Sublist.refl _)
  have hcolor (c : Color) : c.toValue.IsPlain := trivial
  refine .of_plain hkeys (by decide) (by decide) (fun e he => ?_) depth
  simp only [table, List.mem_append] at he
  obtain (hforeground | hbackground) | hflags := he
  · exact Value.isPlain_of_mem_optionalEntry hcolor e hforeground
  · exact Value.isPlain_of_mem_optionalEntry hcolor e hbackground
  · simp only [List.mem_cons, List.not_mem_nil, or_false] at hflags
    obtain rfl | rfl | rfl := hflags <;> trivial

theorem Category.isName_key (c : Category) : IsName c.key := by
  cases c <;> decide

theorem Scheme.storable_table (s : Scheme) : Storable 1 s.table := by
  have htable : s.table =
      [] ++ (Category.all.map fun c => (c.key, (s.style c).table)).map Value.tableEntry := by
    rw [List.nil_append, List.map_map]
    rfl
  have hkeys : (Category.all.map fun c => (c.key, (s.style c).table)).map Prod.fst =
      Category.all.map Category.key := by
    rw [List.map_map]
    rfl
  rw [htable]
  refine .intro [] _ ?_ ?_ (by simp) (fun _ => Nat.one_pos) ?_
  · rw [List.map_nil, List.nil_append, hkeys, List.forall_mem_map]
    exact fun c _ => c.isName_key
  · rw [List.map_nil, List.nil_append, hkeys]
    exact nodup_keys
  · rw [List.forall_mem_map]
    exact fun c _ => (s.style c).storable_table _

theorem WindowBounds.storable_table (b : WindowBounds) (depth : Nat) :
    Storable depth b.table := by
  have hkeys : (b.table.map Prod.fst).Sublist fields := List.Sublist.refl fields
  refine .of_plain hkeys (by decide) (by decide) (fun e he => ?_) depth
  simp only [table, List.mem_cons, List.not_mem_nil, or_false] at he
  have hx := And.intro b.x.le_toInt b.x.toInt_lt
  have hy := And.intro b.y.le_toInt b.y.toInt_lt
  have hwidth := b.width.toNat_lt
  have hheight := b.height.toNat_lt
  obtain rfl | rfl | rfl | rfl := he <;> exact ⟨by omega, by omega⟩

namespace Settings

variable {s : Settings}

theorem isPlain_of_mem_mainEntries (htab : s.tabSize ≤ maxInteger)
    (hundo : s.undoLimit ≤ maxInteger) : ∀ e ∈ s.mainEntries, e.2.IsPlain := by
  have hpath (p : Path) : (pathValue p).IsPlain := trivial
  intro e he
  simp only [mainEntries, List.mem_append] at he
  rw [maxInteger] at htab hundo
  obtain (hvalues | hfile) | hrecent := he
  · simp only [List.mem_cons, List.not_mem_nil, or_false] at hvalues
    obtain rfl | rfl | rfl | rfl | rfl := hvalues
    · trivial
    · trivial
    · exact ⟨by omega, by omega⟩
    · trivial
    · exact ⟨by omega, by omega⟩
  · exact Value.isPlain_of_mem_optionalEntry hpath e hfile
  · obtain rfl := List.mem_singleton.mp hrecent
    exact List.forall_mem_map.mpr fun p _ => ⟨p.chars, rfl⟩

/-- The tables in the table of settings. -/
def tables (s : Settings) : List (String × List (String × Value)) :=
  (s.windowBounds.map fun b => ("window_bounds", b.table)).toList ++ [("colors", s.colors.table)]

theorem table_eq (s : Settings) : s.table = s.mainEntries ++ s.tables.map Value.tableEntry := by
  rw [table, tables, List.append_assoc]
  cases s.windowBounds <;> rfl

theorem keys_sublist (s : Settings) :
    (s.mainEntries.map Prod.fst ++ s.tables.map Prod.fst).Sublist fields := by
  have htables : (s.tables.map Prod.fst).Sublist ["window_bounds", "colors"] := by
    rw [tables]
    cases s.windowBounds with
    | none => exact List.sublist_cons_self _ _
    | some b => exact List.Sublist.refl _
  rw [mainEntries, List.map_append, List.map_append]
  exact (((List.Sublist.refl _).append (Value.keys_optionalEntry_sublist s.lastOpenedFile)).append
    (List.Sublist.refl ["recent_files"])).append htables

/-- Settings hold styles in a table of colors, and nothing lies deeper. -/
theorem storable_table (htab : s.tabSize ≤ maxInteger) (hundo : s.undoLimit ≤ maxInteger) :
    Storable 2 s.table := by
  have hfields : ∀ key ∈ fields, IsName key := by decide
  rw [table_eq]
  refine .intro s.mainEntries s.tables (fun key hkey => hfields key (s.keys_sublist.subset hkey))
    (s.keys_sublist.nodup (by decide)) (isPlain_of_mem_mainEntries htab hundo)
    (fun _ => Nat.two_pos) fun t ht => ?_
  simp only [tables, List.mem_append, List.mem_singleton] at ht
  rcases ht with hbounds | rfl
  · obtain ⟨b, -, rfl⟩ := Option.map_eq_some_iff.mp (Option.mem_toList.mp hbounds)
    exact b.storable_table _
  · exact s.colors.storable_table

/-- **Settings survive a save and a load**, in every format that gives back the tables it is
given. -/
theorem ofText?_toText? {format : TableFormat} (hformat : format.Faithful 2)
    (htab : s.tabSize ≤ maxInteger) (hundo : s.undoLimit ≤ maxInteger) :
    ∃ text, s.toText? format = some text ∧ ofText? format text = some s := by
  obtain ⟨text, hwrite, hread⟩ := hformat s.table (storable_table htab hundo)
  refine ⟨text, hwrite, ?_⟩
  rw [ofText?, hread, Option.bind_some, ofTable?_table htab hundo]

/-- Settings in TOML: the largest tab size, files whose names need quotes, escapes and several
lines, a window left of the screen, and no color set in any style. -/
theorem ofText?_toText?_unset_colors :
    let s : Settings :=
      { tabSize := maxInteger
        undoLimit := 0
        lastOpenedFile := some ⟨['\n', '"', '"', '"', '\\', '\x00', '"']⟩
        recentFiles := [⟨[]⟩, ⟨['\'', '"']⟩, ⟨['#', '\r', '\n']⟩]
        windowBounds := some ⟨-0x80000000, 7, 0, 0xffffffff⟩
        colors := ⟨fun _ => {}⟩ }
    s.colors ≠ .standard ∧ Toml.format.Faithful 2 ∧ s.tabSize ≤ maxInteger ∧
      s.undoLimit ≤ maxInteger ∧
      ∃ text, s.toText? Toml.format = some text ∧ ofText? Toml.format text = some s := by
  intro s
  have hformat : Toml.format.Faithful 2 := Toml.faithful_format (by decide)
  have htab : s.tabSize ≤ maxInteger := Nat.le_refl _
  have hundo : s.undoLimit ≤ maxInteger := Nat.zero_le _
  exact ⟨by decide, hformat, htab, hundo, ofText?_toText? hformat htab hundo⟩

end Settings

end SourceEditor

import SourceEditor.Proofs.Document.Screen

/-!
# The characters of a document on a screen

`Screen.Shows` says what a screen is to show of each character of a document, and in which order. A
line end has no style. A tab is one or more spaces in the style of the tab, no more than the
distance of tab stops, and ends at a tab stop. Any other character has the style of its cell. Where
the characters stand on the screen is read off the screen (`Screen.column`).

Whatever document has been printed, reading its printed form shows it character by character and
leaves the style cleared (`TerminalDocument.shows_render`). A document without styles is printed
without escape characters.
-/

namespace SourceEditor

namespace Screen

/-! ## Columns -/

/-- The column after some glyphs: how many of them are on the last line. -/
def column (glyphs : List Glyph) : Nat := (glyphs.reverse.takeWhile (·.char != '\n')).length

theorem column_append_newline (glyphs : List Glyph) (style : Style) :
    column (glyphs ++ [⟨'\n', style⟩]) = 0 := by
  simp [column]

theorem column_append_char (glyphs : List Glyph) {c : Char} (h : c ≠ '\n') (style : Style) :
    column (glyphs ++ [⟨c, style⟩]) = column glyphs + 1 := by
  simp [column, h]

theorem column_append_spaces (glyphs : List Glyph) (count : Nat) (style : Style) :
    column (glyphs ++ List.replicate count ⟨' ', style⟩) = column glyphs + count := by
  induction count with
  | zero => simp
  | succ count ih =>
    rw [List.replicate_succ', ← List.append_assoc, column_append_char _ (by decide), ih,
      Nat.add_assoc]

/-! ## What is shown of a cell -/

/-- What is shown of a cell after some glyphs, with the given distance of tab stops. -/
inductive ShowsCell (tab : Nat) (before : List Glyph) : Cell → List Glyph → Prop
  | newline (style : Option Style) : ShowsCell tab before ⟨'\n', style⟩ [⟨'\n', {}⟩]
  | tab (style : Option Style) {count : Nat} (pos : 0 < count) (le : count ≤ tab)
      (stop : tab ∣ column (before ++ List.replicate count ⟨' ', style.getD {}⟩)) :
      ShowsCell tab before ⟨'\t', style⟩ (List.replicate count ⟨' ', style.getD {}⟩)
  | char {c : Char} (newline_ne : c ≠ '\n') (tab_ne : c ≠ '\t') (style : Option Style) :
      ShowsCell tab before ⟨c, style⟩ [⟨c, style.getD {}⟩]

/-- What is shown of cells, one after the other, after some glyphs. -/
inductive Shows (tab : Nat) : List Glyph → List Cell → List Glyph → Prop
  | nil (before : List Glyph) : Shows tab before [] []
  | cons {before shown glyphs : List Glyph} {cell : Cell} {cells : List Cell}
      (first : ShowsCell tab before cell shown) (rest : Shows tab (before ++ shown) cells glyphs) :
      Shows tab before (cell :: cells) (shown ++ glyphs)

variable {tab : Nat}

theorem ShowsCell.length_le (htab : 0 < tab) {before shown : List Glyph} {cell : Cell}
    (h : ShowsCell tab before cell shown) : shown.length ≤ tab := by
  cases h with
  | newline style => exact htab
  | tab style pos le stop => rwa [List.length_replicate]
  | char newline_ne tab_ne style => exact htab

theorem Shows.length_le (htab : 0 < tab) {before glyphs : List Glyph} {cells : List Cell}
    (h : Shows tab before cells glyphs) : glyphs.length ≤ cells.length * tab := by
  induction h with
  | nil before => exact Nat.zero_le _
  | cons first rest ih =>
    have hfirst := first.length_le htab
    rw [List.length_append, List.length_cons, Nat.succ_mul]
    omega

/-- The next tab stop is at least one column away, and no more than the distance of tab stops. -/
theorem showsCell_tab (htab : 0 < tab) (before : List Glyph) (style : Option Style) :
    ShowsCell tab before ⟨'\t', style⟩
      (List.replicate (nextStop tab (column before) - column before) ⟨' ', style.getD {}⟩) := by
  have hstop := add_sub_mod_eq_nextStop htab (column before)
  have hrest := Nat.mod_lt (column before) htab
  refine .tab style (by omega) (by omega) ?_
  rw [column_append_spaces, Nat.add_sub_cancel' (by omega)]
  exact Nat.dvd_mul_left tab _

/-- Cells are shown as they look from the column on which the glyphs before them end. -/
theorem shows_display (htab : 0 < tab) (before : List Glyph) (cells : List Cell) :
    Shows tab before cells (display tab (column before) cells) := by
  induction cells generalizing before with
  | nil => exact .nil before
  | cons cell cells ih =>
    obtain ⟨c, style⟩ := cell
    rw [display]
    by_cases hnewline : c = '\n'
    · subst hnewline
      have hrest := ih (before ++ [⟨'\n', {}⟩])
      rw [column_append_newline] at hrest
      exact .cons (.newline style) hrest
    · by_cases hfill : c = '\t'
      · subst hfill
        have hrest := ih (before ++
          List.replicate (nextStop tab (column before) - column before) ⟨' ', style.getD {}⟩)
        have hstop := add_sub_mod_eq_nextStop htab (column before)
        rw [column_append_spaces, Nat.add_sub_cancel' (by omega)] at hrest
        exact .cons (showsCell_tab htab before style) hrest
      · have hrest := ih (before ++ [⟨c, style.getD {}⟩])
        rw [column_append_char _ hnewline] at hrest
        simp only [hnewline, hfill, if_false]
        exact .cons (.char hnewline hfill style) hrest

end Screen

/-! ## Documents without styles -/

namespace TerminalDocument

theorem transition_self (style : Option Style) : transition style style = [] := if_pos rfl

/-- Without styles, nothing is printed but spaces and the characters themselves. -/
theorem mem_print_of_unstyled {format : PrintFormat} (hgutter : format.gutterWidth = none)
    {cells : List Cell} (hstyle : ∀ cell ∈ cells, cell.style = none) {c : Char}
    {column line : Nat} (hc : c ∈ (format.print none column line cells).flatMap Piece.chars) :
    c = ' ' ∨ ∃ cell ∈ cells, cell.char = c := by
  induction cells generalizing column line with
  | nil => exact absurd hc List.not_mem_nil
  | cons cell cells ih =>
    rw [List.forall_mem_cons] at hstyle
    obtain ⟨hnone, hcells⟩ := hstyle
    have hrest {column line : Nat}
        (hc : c ∈ (format.print none column line cells).flatMap Piece.chars) :
        c = ' ' ∨ ∃ x ∈ cell :: cells, x.char = c := by
      rcases ih hcells hc with hspace | ⟨x, hx, hchar⟩
      · exact Or.inl hspace
      · exact Or.inr ⟨x, List.mem_cons_of_mem _ hx, hchar⟩
    have hself (h : c = cell.char) : c = ' ' ∨ ∃ x ∈ cell :: cells, x.char = c :=
      Or.inr ⟨cell, List.mem_cons_self, h.symm⟩
    rw [PrintFormat.print, hnone, transition_self, List.flatMap_cons, Piece.chars,
      List.nil_append] at hc
    split at hc
    · next hnewline =>
      rw [List.flatMap_cons, Piece.chars, List.nil_append,
        Screen.lineHead_of_eq_none hgutter, List.mem_append, List.mem_singleton] at hc
      exact hc.elim (fun h => hself (h.trans hnewline.symm)) hrest
    · split at hc
      · rw [List.flatMap_cons, Piece.chars, List.mem_append, List.mem_replicate] at hc
        exact hc.elim (fun h => Or.inl h.2) hrest
      · rw [List.flatMap_cons, Piece.chars, List.mem_append, List.mem_singleton] at hc
        exact hc.elim hself hrest

theorem escape_not_mem_printed {d : TerminalDocument}
    (hescape : ∀ cell ∈ d.cells, cell.char ≠ '\x1b')
    (hstyle : ∀ cell ∈ d.cells, cell.style = none) :
    '\x1b' ∉ d.printed false := by
  intro hmem
  rw [printed_eq] at hmem
  rcases mem_print_of_unstyled rfl hstyle hmem with hspace | ⟨cell, hcell, hchar⟩
  · exact absurd hspace (by decide)
  · exact hescape cell hcell hchar

/-! ## Printed documents -/

theorem eq_printed_of_render {d : TerminalDocument} {numbered : Bool} {output : List Char}
    (h : d.render numbered = .ok output) : output = d.printed numbered := by
  rw [render] at h
  split at h
  · exact (Except.ok.inj h).symm
  · cases h

/-- **The printed form of a document shows it, character by character.** A screen that reads what is
printed of a document without escape characters ends with a cleared style, and without styles there
are no escape characters in it. The document is printed if there is room for every character to
become a full tab, with 256 bytes to spare for each. -/
theorem shows_render {d : TerminalDocument} (hescape : ∀ cell ∈ d.cells, cell.char ≠ '\x1b') :
    ((d.cells.length + 1) * (max (d.tabSize.getD 4) 1 + 256) ≤ maxAllocation →
      ∃ output, d.render false = .ok output) ∧
    ∀ output, d.render false = .ok output →
      (∃ glyphs, Screen.read {} output = some ⟨glyphs, {}, .text⟩ ∧
        Screen.Shows (max (d.tabSize.getD 4) 1) [] d.cells glyphs) ∧
      ((∀ cell ∈ d.cells, cell.style = none) → '\x1b' ∉ output) := by
  have htab := d.tab_printFormat_pos false
  have hshows := Screen.shows_display htab [] d.cells
  refine ⟨fun hroom => ?_, fun output houtput => ?_⟩
  · have hsize := d.printedSize_le
    have hlength : (Screen.display (d.printFormat false).tab 0 d.cells).length ≤ _ :=
      hshows.length_le htab
    have hbound : (d.cells.length + 1) * ((d.printFormat false).tab + 256) ≤ maxAllocation := hroom
    rw [Nat.mul_add, Nat.succ_mul, Nat.mul_comm (d.cells.length + 1) 256] at hbound
    exact ⟨_, if_pos (show d.printedSize false ≤ maxAllocation by omega)⟩
  · obtain rfl := eq_printed_of_render houtput
    exact ⟨⟨_, read_printed hescape, hshows⟩, escape_not_mem_printed hescape⟩

/-- The style of a line end is not to be seen, the one of a tab is, and the empty style looks like
none. -/
theorem shows_render_colored_tab :
    let bold : Style := { bold := true }
    let colored : Style := { background := some ⟨0xff, 0, 0x10⟩, underline := true }
    let d : TerminalDocument :=
      { cells := [⟨'a', some bold⟩, ⟨'\n', some bold⟩, ⟨'b', none⟩, ⟨'\t', some colored⟩,
          ⟨'c', some {}⟩]
        tabSize := some 3 }
    let glyphs : List Glyph :=
      [⟨'a', bold⟩, ⟨'\n', {}⟩, ⟨'b', {}⟩, ⟨' ', colored⟩, ⟨' ', colored⟩, ⟨'c', {}⟩]
    (∀ cell ∈ d.cells, cell.char ≠ '\x1b') ∧
    ∃ output, d.render false = .ok output ∧ Screen.read {} output = some ⟨glyphs, {}, .text⟩ ∧
      Screen.Shows 3 [] d.cells glyphs := by
  intro bold colored d glyphs
  have hescape : ∀ cell ∈ d.cells, cell.char ≠ '\x1b' := by decide
  obtain ⟨hrenders, hshown⟩ := shows_render hescape
  obtain ⟨output, houtput⟩ := hrenders (by decide)
  obtain ⟨⟨shown, hread, hshows⟩, -⟩ := hshown output houtput
  have hglyphs : Screen.read {} (d.printed false) = some ⟨glyphs, {}, .text⟩ := by decide +kernel
  obtain rfl := eq_printed_of_render houtput
  rw [hglyphs, Option.some.injEq, Screen.mk.injEq] at hread
  exact ⟨hescape, _, houtput, hglyphs, hread.1 ▸ hshows⟩

end TerminalDocument

end SourceEditor

import SourceEditor.Proofs.Document.Rendering
import SourceEditor.Proofs.Session.Surfaces
import SourceEditor.Proofs.Text.Lines

/-!
# Line numbers

A document is printed with or without line numbers. The printed form with numbers is the one
without, with a number in front of every line (`numberLines`). What is printed of a cell has no line
end in it unless the cell is one (`exists_print_cons`), so the lines of the printed form are those
of the document, and the numbers stand where they belong. They have no style, since every line end
is shown without one: a screen shows the plain form with unstyled numbers in it
(`Screen.read_headLines`).

Under a session the document knows how many lines there are. Then there is room for all of their
numbers in the width that the gutter has.
-/

namespace SourceEditor

/-! ## Numbered lines -/

section Lines

theorem intercalate_append_cons {α : Type} (separator front part : List α)
    (parts : List (List α)) :
    separator.intercalate ((front ++ part) :: parts) =
      front ++ separator.intercalate (part :: parts) := by
  cases parts with
  | nil => rw [List.intercalate_singleton, List.intercalate_singleton]
  | cons next parts =>
    rw [List.intercalate_cons_cons, List.intercalate_cons_cons, List.append_assoc,
      List.append_assoc, List.append_assoc]

variable {α : Type} [BEq α]

/-- A text with a head in front of every line, where lines are counted from one. -/
def numberLines (newline : α) (head : Nat → List α) (text : List α) : List α :=
  [newline].intercalate ((text.splitOn newline).mapIdx fun i line => head (i + 1) ++ line)

/-- Puts a head in front of every line but the first, whose number is given. -/
def headLines (newline : α) (head : Nat → List α) : (line : Nat) → List α → List α
  | _, [] => []
  | line, a :: as =>
    if a == newline then a :: (head (line + 1) ++ headLines newline head (line + 1) as)
    else a :: headLines newline head line as

variable [LawfulBEq α] {newline : α} {head : Nat → List α}

theorem append_headLines (newline : α) (head : Nat → List α) (line : Nat) (text : List α) :
    head line ++ headLines newline head line text =
      [newline].intercalate
        ((text.splitOn newline).mapIdx fun i part => head (line + i) ++ part) := by
  induction text generalizing line with
  | nil => simp [headLines]
  | cons a text ih =>
    rw [headLines, List.splitOn_cons_eq_if_modifyHead]
    obtain ⟨part, parts, hparts⟩ := List.exists_cons_of_ne_nil (List.splitOn_ne_nil newline text)
    by_cases ha : a == newline
    · have hnext := ih (line + 1)
      rw [if_pos ha, if_pos ha, eq_of_beq ha, List.mapIdx_cons, hnext, hparts, List.mapIdx_cons,
        List.mapIdx_cons, List.intercalate_cons_cons]
      simp only [List.append_nil, Nat.add_zero, List.append_assoc, List.singleton_append,
        Nat.add_assoc, Nat.add_comm 1]
    · have hsame := ih line
      rw [hparts, List.mapIdx_cons, intercalate_append_cons, Nat.add_zero] at hsame
      rw [if_neg ha, if_neg ha, hparts, List.modifyHead_cons, List.mapIdx_cons,
        intercalate_append_cons, List.append_cancel_left hsame, ← List.singleton_append,
        ← List.singleton_append (l := part), intercalate_append_cons, Nat.add_zero]

theorem numberLines_eq (newline : α) (head : Nat → List α) (text : List α) :
    numberLines newline head text = head 1 ++ headLines newline head 1 text := by
  rw [append_headLines, numberLines]
  simp only [Nat.add_comm 1]

theorem headLines_append {front : List α} (h : newline ∉ front) (line : Nat) (back : List α) :
    headLines newline head line (front ++ back) = front ++ headLines newline head line back := by
  induction front with
  | nil => rfl
  | cons a front ih =>
    rw [List.mem_cons, not_or] at h
    have ha : ¬ a == newline := fun ha => h.1 (eq_of_beq ha).symm
    rw [List.cons_append, headLines, if_neg ha, ih h.2, List.cons_append]

end Lines

theorem byteLength_le_headLines (head : Nat → List Char) (line : Nat) (text : List Char) :
    byteLength text ≤ byteLength (headLines '\n' head line text) := by
  induction text generalizing line with
  | nil => exact Nat.zero_le _
  | cons c text ih =>
    rw [headLines]
    split
    · have hrest := ih (line + 1)
      rw [byteLength, byteLength, byteLength_append]
      omega
    · exact Nat.add_le_add_left (ih line) _

/-! ## Heads on a screen -/

namespace Screen

variable {s t : Screen}

theorem read_plain {text : List Char} (h : '\x1b' ∉ text) (glyphs : List Glyph) (style : Style) :
    read ⟨glyphs, style, .text⟩ text =
      some ⟨glyphs ++ text.map (⟨·, style⟩), style, .text⟩ := by
  induction text generalizing glyphs with
  | nil =>
    rw [List.map_nil, List.append_nil]
    rfl
  | cons c text ih =>
    rw [List.mem_cons, not_or] at h
    rw [← List.singleton_append, read_append_of_eq (read_char (Ne.symm h.1)), ih h.2,
      List.append_assoc, List.map_append, List.map_singleton]

/-- A character is shown, or it belongs to an escape sequence and is no line end. What was shown
before makes no difference. -/
theorem put_cases {c : Char} (h : s.put c = some t) :
    (s.input = .text ∧ c ≠ '\x1b' ∧ t = { s with glyphs := s.glyphs ++ [⟨c, s.style⟩] }) ∨
      c ≠ '\n' ∧ t.glyphs = s.glyphs ∧
        ∀ glyphs, put { s with glyphs } c = some { t with glyphs } := by
  obtain ⟨glyphs, style, input⟩ := s
  cases input with
  | text =>
    simp only [put] at h
    split at h
    · next hc =>
      cases h
      exact Or.inr ⟨hc ▸ by decide, rfl, fun glyphs => by simp [put, hc]⟩
    · next hc =>
      cases h
      exact Or.inl ⟨rfl, hc, rfl⟩
  | escape =>
    simp only [put] at h
    split at h
    · next hc =>
      cases h
      exact Or.inr ⟨hc ▸ by decide, rfl, fun glyphs => by simp [put, hc]⟩
    · cases h
  | codes earlier current =>
    simp only [put] at h
    split at h
    · next hc =>
      cases h
      refine Or.inr ⟨?_, rfl, fun glyphs => by simp [put, hc]⟩
      rintro rfl
      exact absurd hc (by decide)
    · next hdigit =>
      split at h
      · next hc =>
        cases h
        exact Or.inr ⟨hc ▸ by decide, rfl, fun glyphs => by simp [put, hc]⟩
      · split at h
        · next hc =>
          obtain ⟨style', hstyle, rfl⟩ := Option.map_eq_some_iff.mp h
          exact Or.inr ⟨hc ▸ by decide, rfl, fun glyphs => by simp [put, hc, hstyle]⟩
        · cases h

/-- What is shown stays. -/
theorem exists_glyphs_of_read {text : List Char} (h : s.read text = some t) :
    ∃ shown, t.glyphs = s.glyphs ++ shown := by
  induction text generalizing s with
  | nil =>
    cases h
    exact ⟨[], (List.append_nil _).symm⟩
  | cons c text ih =>
    rw [read_cons] at h
    obtain ⟨u, hput, hread⟩ := Option.bind_eq_some_iff.mp h
    obtain ⟨shown, hshown⟩ := ih hread
    rcases put_cases hput with ⟨-, -, rfl⟩ | ⟨-, hglyphs, -⟩
    · exact ⟨⟨c, s.style⟩ :: shown, by rw [hshown, List.append_assoc, List.singleton_append]⟩
    · exact ⟨shown, by rw [hshown, hglyphs]⟩

/-- **Heads are shown without a style**, if the line ends before them are. The text around them
looks as it does without them. -/
theorem read_headLines {head : Nat → List Char} (hhead : ∀ line, '\x1b' ∉ head line)
    {text : List Char} {glyphs shown : List Glyph} {style style' : Style}
    {input input' : ScreenInput}
    (hread : read ⟨glyphs, style, input⟩ text = some ⟨glyphs ++ shown, style', input'⟩)
    (hcleared : ∀ glyph ∈ shown, glyph.char = '\n' → glyph.style = {})
    (before : List Glyph) (line : Nat) :
    read ⟨before, style, input⟩ (headLines '\n' head line text) =
      some ⟨before ++ headLines ⟨'\n', {}⟩ (fun n => (head n).map (⟨·, {}⟩)) line shown, style',
        input'⟩ := by
  induction text generalizing glyphs shown style input before line with
  | nil =>
    obtain ⟨rfl, rfl, rfl⟩ : shown = [] ∧ style = style' ∧ input = input' := by
      simpa [read] using hread
    rw [headLines, headLines, List.append_nil]
    rfl
  | cons c text ih =>
    rw [read_cons] at hread
    obtain ⟨u, hput, hrest⟩ := Option.bind_eq_some_iff.mp hread
    rcases put_cases hput with ⟨rfl, hescape, rfl⟩ | ⟨hnewline, hglyphs, hframe⟩
    · -- the character is the first of what is shown
      obtain ⟨later, hlater⟩ := exists_glyphs_of_read hrest
      obtain rfl : shown = ⟨c, style⟩ :: later := by simpa using hlater
      rw [List.forall_mem_cons] at hcleared
      have hagain : read ⟨glyphs ++ [⟨c, style⟩], style, .text⟩ text =
          some ⟨glyphs ++ [⟨c, style⟩] ++ later, style', input'⟩ := by
        rw [List.append_assoc]
        exact hrest
      have hfirst : read ⟨before, style, .text⟩ [c] = _ := read_char hescape
      rw [headLines, headLines]
      by_cases hc : c = '\n'
      · obtain rfl := hc
        obtain rfl : style = {} := hcleared.1 rfl
        rw [if_pos (beq_self_eq_true _), if_pos (beq_self_eq_true _), ← List.singleton_append,
          read_append_of_eq hfirst, read_append_of_eq (read_plain (hhead _) _ _),
          ih hagain hcleared.2]
        simp only [List.append_assoc, List.cons_append, List.nil_append]
      · have hglyph : ¬ (⟨c, style⟩ : Glyph) == ⟨'\n', {}⟩ := by simp [hc]
        rw [if_neg (by simpa using hc), if_neg hglyph, ← List.singleton_append,
          read_append_of_eq hfirst, ih hagain hcleared.2, List.append_assoc, List.singleton_append]
    · obtain ⟨glyphs', style₁, input₁⟩ := u
      obtain rfl : glyphs' = glyphs := hglyphs
      have hstep : put ⟨before, style, input⟩ c = some ⟨before, style₁, input₁⟩ := hframe before
      rw [headLines, if_neg (by simpa using hnewline), read_cons, hstep, Option.bind_some]
      exact ih hrest hcleared before line

theorem Shows.newline_cleared {tab : Nat} {before glyphs : List Glyph} {cells : List Cell}
    (h : Shows tab before cells glyphs) {glyph : Glyph} (hmem : glyph ∈ glyphs)
    (hnewline : glyph.char = '\n') : glyph.style = {} := by
  induction h with
  | nil before => cases hmem
  | cons first rest ih =>
    rcases List.mem_append.mp hmem with hfirst | hrest
    · cases first with
      | newline style =>
        rw [List.mem_singleton.mp hfirst]
      | tab style pos le stop =>
        rw [(List.mem_replicate.mp hfirst).2] at hnewline
        exact absurd hnewline (show ' ' ≠ '\n' by decide)
      | char newline_ne tab_ne style =>
        rw [List.mem_singleton.mp hfirst] at hnewline
        exact absurd hnewline newline_ne
    · exact ih hrest

end Screen

/-! ## Line ends in the printed form -/

theorem mem_intercalate {separator : List Char} {parts : List (List Char)} {c : Char}
    (h : c ∈ separator.intercalate parts) : c ∈ separator ∨ ∃ part ∈ parts, c ∈ part := by
  induction parts with
  | nil => exact absurd h List.not_mem_nil
  | cons part parts ih =>
    cases parts with
    | nil =>
      rw [List.intercalate_singleton] at h
      exact Or.inr ⟨part, List.mem_singleton_self part, h⟩
    | cons next parts =>
      rw [List.intercalate_cons_cons, List.mem_append, List.mem_append] at h
      rcases h with (hpart | hseparator) | hrest
      · exact Or.inr ⟨part, List.mem_cons_self, hpart⟩
      · exact Or.inl hseparator
      · rcases ih hrest with hseparator | ⟨q, hq, hc⟩
        · exact Or.inl hseparator
        · exact Or.inr ⟨q, List.mem_cons_of_mem _ hq, hc⟩

namespace TerminalDocument

theorem isDigit_of_mem_decimal {n : Nat} {c : Char} (h : c ∈ decimal n) : c.isDigit = true :=
  Nat.isDigit_of_mem_toDigits (by decide) (by decide) h

theorem newline_not_mem_sequence (codes : List Nat) :
    '\n' ∉ TerminalDocument.sequence (codes.map decimal) := by
  intro h
  rw [TerminalDocument.sequence, List.mem_append, List.mem_append] at h
  rcases h with (hopening | hcodes) | hend
  · exact absurd hopening (by decide)
  · rcases mem_intercalate hcodes with hseparator | ⟨code, hcode, hc⟩
    · exact absurd hseparator (by decide)
    · obtain ⟨n, -, rfl⟩ := List.mem_map.mp hcode
      exact absurd (isDigit_of_mem_decimal hc) (by decide)
  · exact absurd hend (by decide)

theorem newline_not_mem_transition (old new : Option Style) : '\n' ∉ transition old new := by
  have hreset : '\n' ∉ reset := newline_not_mem_sequence [0]
  unfold transition
  split
  · exact List.not_mem_nil
  · cases new with
    | none => exact hreset
    | some style =>
      have hcodes := newline_not_mem_sequence style.codeGroups.flatten
      rw [← sequence_styleCodes] at hcodes
      simp only [List.mem_append, not_or]
      exact ⟨hreset, hcodes⟩

/-- **What is printed of a cell.** Its line end comes last, and nothing before the line end hangs on
whether there are line numbers. -/
theorem exists_print_cons (tab : Nat) (current : Option Style) (column line : Nat) (cell : Cell)
    (cells : List Cell) :
    ∃ front style next, '\n' ∉ front ∧ ∀ gutterWidth,
      ((PrintFormat.mk tab gutterWidth).print current column line (cell :: cells)).flatMap
          Piece.chars =
        front ++ if cell.char = '\n' then
          '\n' :: ((PrintFormat.mk tab gutterWidth).lineHead (line + 1) ++
            ((PrintFormat.mk tab gutterWidth).print none 0 (line + 1) cells).flatMap Piece.chars)
        else
          ((PrintFormat.mk tab gutterWidth).print style next line cells).flatMap Piece.chars := by
  have hstyle := newline_not_mem_transition current cell.style
  by_cases hnewline : cell.char = '\n'
  · refine ⟨transition current cell.style ++ transition cell.style none, none, 0, ?_, ?_⟩
    · rw [List.mem_append, not_or]
      exact ⟨hstyle, newline_not_mem_transition cell.style none⟩
    · intro gutterWidth
      rw [PrintFormat.print, if_pos hnewline, if_pos hnewline]
      simp [Piece.chars]
  · by_cases hfill : cell.char = '\t'
    · refine ⟨transition current cell.style ++ List.replicate (tab - column % tab) ' ', cell.style,
        column + (tab - column % tab), ?_, ?_⟩
      · rw [List.mem_append, not_or, List.mem_replicate]
        exact ⟨hstyle, fun h => absurd h.2 (by decide)⟩
      · intro gutterWidth
        rw [PrintFormat.print, if_neg hnewline, if_neg hnewline, if_pos hfill]
        simp [Piece.chars]
    · refine ⟨transition current cell.style ++ [cell.char], cell.style, column + 1, ?_, ?_⟩
      · rw [List.mem_append, not_or, List.mem_singleton]
        exact ⟨hstyle, Ne.symm hnewline⟩
      · intro gutterWidth
        rw [PrintFormat.print, if_neg hnewline, if_neg hnewline, if_neg hfill]
        simp [Piece.chars]

/-- The numbered form is the plain one with the gutter in front of its lines. -/
theorem print_numbered (tab width : Nat) (current : Option Style) (column line : Nat)
    (cells : List Cell) :
    ((PrintFormat.mk tab (some width)).print current column line cells).flatMap Piece.chars =
      headLines '\n' (gutter width) line
        (((PrintFormat.mk tab none).print current column line cells).flatMap Piece.chars) := by
  induction cells generalizing current column line with
  | nil =>
    cases current with
    | none => rfl
    | some style =>
      have hreset : '\n' ∉ reset := newline_not_mem_sequence [0]
      exact (headLines_append hreset line []).symm
  | cons cell cells ih =>
    obtain ⟨front, style, next, hfront, hprint⟩ :=
      exists_print_cons tab current column line cell cells
    rw [hprint, hprint, headLines_append hfront]
    by_cases hnewline : cell.char = '\n'
    · rw [if_pos hnewline, if_pos hnewline, headLines, if_pos (beq_self_eq_true _), ih]
      rfl
    · rw [if_neg hnewline, if_neg hnewline, ih]

/-- The plain form has the line ends of the document. -/
theorem count_newline_print (tab : Nat) (current : Option Style) (column line : Nat)
    (cells : List Cell) :
    (((PrintFormat.mk tab none).print current column line cells).flatMap Piece.chars).count '\n' =
      (cells.map Cell.char).count '\n' := by
  induction cells generalizing current column line with
  | nil =>
    cases current with
    | none => rfl
    | some style => exact List.count_eq_zero.mpr (newline_not_mem_sequence [0])
  | cons cell cells ih =>
    obtain ⟨front, style, next, hfront, hprint⟩ :=
      exists_print_cons tab current column line cell cells
    rw [hprint, List.count_append, List.count_eq_zero.mpr hfront, Nat.zero_add, List.map_cons,
      List.count_cons]
    by_cases hnewline : cell.char = '\n'
    · rw [if_pos hnewline, List.count_cons_self, Screen.lineHead_of_eq_none rfl, List.nil_append,
        ih, if_pos (by simpa using hnewline)]
    · rw [if_neg hnewline, ih, if_neg (by simpa using hnewline), Nat.add_zero]

/-! ## Printed documents -/

/-- A text that is not too long. -/
def bounded (text : List Char) : Except Fault (List Char) :=
  if byteLength text ≤ maxAllocation then .ok text else .error .tooLong

theorem byteLength_spaces (count : Nat) : byteLength (List.replicate count ' ') = count := by
  induction count with
  | zero => rfl
  | succ count ih =>
    have hsize : ' '.utf8Size = 1 := by decide
    rw [List.replicate_succ, byteLength, ih, hsize, Nat.add_comm]

theorem totalSize_eq (pieces : List Piece) :
    Piece.totalSize pieces = byteLength (pieces.flatMap Piece.chars) := by
  induction pieces with
  | nil => rfl
  | cons piece pieces ih =>
    rw [List.flatMap_cons, byteLength_append, Piece.totalSize, ih]
    cases piece with
    | text chars => rfl
    | spaces count => rw [Piece.size, Piece.chars, byteLength_spaces]

/-- The size of the printed form is known before it is written out. -/
theorem render_eq_bounded (d : TerminalDocument) (numbered : Bool) :
    d.render numbered = bounded (d.printed numbered) := by
  rw [render, bounded, printedSize, totalSize_eq, printed]

/-- The number of digits of the greatest line number. -/
def numberWidth (d : TerminalDocument) : Nat := (Nat.toDigits 10 (max d.lineCount 1)).length

/-- The number of a line, set to the right, and a space. -/
def lineNumber (d : TerminalDocument) (line : Nat) : List Char :=
  (Nat.toDigits 10 line).leftpad d.numberWidth ' ' ++ [' ']

theorem printed_numbered {d : TerminalDocument} (h : d.cells ≠ []) :
    d.printed true = numberLines '\n' d.lineNumber (d.printed false) := by
  have hcells : d.cells.isEmpty = false := by simpa using h
  have hprint := print_numbered (d.printFormat false).tab d.numberWidth none 0 1 d.cells
  rw [numberLines_eq, printed_eq, printed, pieces, hcells]
  exact congrArg (d.lineNumber 1 ++ ·) hprint

theorem length_lineNumber {d : TerminalDocument} {line : Nat} (h : line ≤ d.lineCount) :
    (d.lineNumber line).length = d.numberWidth + 1 := by
  have hpos : 0 < d.numberWidth := Nat.length_toDigits_pos
  have hwidth : max d.lineCount 1 < 10 ^ d.numberWidth :=
    (Nat.length_toDigits_le_iff (by decide) hpos).mp (Nat.le_refl _)
  have hdigits : (Nat.toDigits 10 line).length ≤ d.numberWidth :=
    (Nat.length_toDigits_le_iff (by decide) hpos).mpr (by omega)
  rw [lineNumber, List.length_append, List.length_leftpad, Nat.max_eq_left hdigits]
  rfl

theorem escape_not_mem_lineNumber (d : TerminalDocument) (line : Nat) :
    '\x1b' ∉ d.lineNumber line := by
  simp only [lineNumber, List.leftpad, List.mem_append, not_or]
  refine ⟨⟨?_, ?_⟩, by decide⟩
  · intro h
    exact absurd (List.mem_replicate.mp h).2 (by decide)
  · intro h
    exact absurd (isDigit_of_mem_decimal h) (by decide)

/-- Under a session, the document knows how many lines there are. -/
theorem length_splitOn_of_run {java : ExternalParser} {options : Options}
    {s : Session TerminalDocument} (hstart : Session.start ({} : TerminalDocument) options = .ok s)
    (operations : List Operation) :
    (((Session.run java operations s).document.printed false).splitOn '\n').length =
      (Session.run java operations s).document.lineCount := by
  obtain ⟨s₀, hstart₀, hshown⟩ := Session.exists_start_of_terminal java hstart
  have hmirrored : Session.Mirrored (Session.run java operations s₀) :=
    ((Session.sound_of_start hstart₀).run operations).toMirrored
  have hchars := (shownBy_shown hmirrored.toAligned.styles_length_chars).chars_eq
  rw [hshown, length_splitOn, printed_eq]
  change ((PrintFormat.print ⟨_, none⟩ none 0 1 _).flatMap Piece.chars).count '\n' + 1 = _
  rw [count_newline_print]
  change (List.map Cell.char (Session.run java operations s₀).document.shown.cells).count '\n' + 1 =
    (Session.run java operations s₀).document.lineCount
  rw [hchars, hmirrored.chars_eq, hmirrored.lineCount_eq, hmirrored.lineCount_eq_count,
    Nat.add_comm]

/-- The numbered form is longer than the plain one. -/
theorem render_true_eq {d : TerminalDocument} (h : d.cells ≠ []) :
    d.render true =
      (d.render false).bind fun plain => bounded (numberLines '\n' d.lineNumber plain) := by
  rw [render_eq_bounded, render_eq_bounded, printed_numbered h, bounded, bounded]
  by_cases hlong : byteLength (d.printed false) ≤ maxAllocation
  · rw [if_pos hlong]
    rfl
  · have hheads := byteLength_le_headLines d.lineNumber 1 (d.printed false)
    have hnumbered : ¬ byteLength (numberLines '\n' d.lineNumber (d.printed false)) ≤
        maxAllocation := by
      rw [numberLines_eq, byteLength_append]
      omega
    rw [if_neg hlong, if_neg hnumbered]
    rfl

/-- A screen that reads the numbered form shows the plain one, with numbers that have no style. -/
theorem read_printed_numbered {d : TerminalDocument} (hne : d.cells ≠ [])
    (hescape : ∀ cell ∈ d.cells, cell.char ≠ '\x1b') :
    Screen.read {} (d.printed true) =
      some ⟨numberLines ⟨'\n', {}⟩ (fun line => (d.lineNumber line).map (⟨·, {}⟩))
        (Screen.display (d.printFormat false).tab 0 d.cells), {}, .text⟩ := by
  have hshows := Screen.shows_display (d.tab_printFormat_pos false) [] d.cells
  rw [printed_numbered hne, numberLines_eq, numberLines_eq,
    Screen.read_append_of_eq (Screen.read_plain (d.escape_not_mem_lineNumber 1) [] {})]
  exact Screen.read_headLines d.escape_not_mem_lineNumber (read_printed hescape)
    (fun glyph hglyph => hshows.newline_cleared hglyph) _ 1

/-- **Line numbers are decoration.** Nothing is printed of an empty document. The numbered form of
any other is its plain form with a number in front of every line, and fails to be printed only if
one of the two is too long. On a screen the numbers have no style, if the document has no escape
characters. Under a session all numbers take up the same width. -/
theorem render_numbered (d : TerminalDocument) :
    (d.cells = [] → d.render true = .ok []) ∧
    (d.cells ≠ [] → d.render true =
      (d.render false).bind fun plain => bounded (numberLines '\n' d.lineNumber plain)) ∧
    (d.cells ≠ [] → (∀ cell ∈ d.cells, cell.char ≠ '\x1b') → ∀ plain numbered,
      d.render false = .ok plain → d.render true = .ok numbered →
      ∃ glyphs, Screen.read {} plain = some ⟨glyphs, {}, .text⟩ ∧
        Screen.read {} numbered = some ⟨numberLines ⟨'\n', {}⟩
          (fun line => (d.lineNumber line).map (⟨·, {}⟩)) glyphs, {}, .text⟩) ∧
    ∀ java options s operations, Session.start ({} : TerminalDocument) options = .ok s →
      (Session.run java operations s).document = d → ∀ plain, d.render false = .ok plain →
      ∀ line ≤ (plain.splitOn '\n').length, (d.lineNumber line).length = d.numberWidth + 1 := by
  refine ⟨?_, render_true_eq, ?_, ?_⟩
  · intro hnil
    have hprinted : d.printed true = [] := by
      rw [printed, pieces, hnil]
      rfl
    rw [render_eq_bounded, hprinted]
    rfl
  · intro hne hescape plain numbered hplain hnumbered
    obtain rfl := eq_printed_of_render hplain
    obtain rfl := eq_printed_of_render hnumbered
    exact ⟨_, read_printed hescape, read_printed_numbered hne hescape⟩
  · rintro java options s operations hstart rfl plain hplain line hline
    obtain rfl := eq_printed_of_render hplain
    rw [length_splitOn_of_run hstart] at hline
    exact length_lineNumber hline

/-- The style of a line end does not reach the number of the next line, tab stops are where they are
without numbers, and a number of one digit is set to the right. -/
theorem render_numbered_tab :
    let bold : Style := { bold := true }
    let d : TerminalDocument :=
      { cells := [⟨'a', some bold⟩, ⟨'\n', some bold⟩, ⟨'b', none⟩, ⟨'\t', none⟩, ⟨'c', none⟩]
        tabSize := some 4
        lineCount := 10 }
    let loaded := Session.run noJavaParts [.load ['x', '\n']] (Session.fresh {} {}).shown
    (∃ plain numbered, d.render false = .ok plain ∧ d.render true = .ok numbered ∧
      Screen.read {} numbered = some
        ⟨[⟨' ', {}⟩, ⟨'1', {}⟩, ⟨' ', {}⟩, ⟨'a', bold⟩, ⟨'\n', {}⟩, ⟨' ', {}⟩, ⟨'2', {}⟩, ⟨' ', {}⟩,
          ⟨'b', {}⟩, ⟨' ', {}⟩, ⟨' ', {}⟩, ⟨' ', {}⟩, ⟨'c', {}⟩], {}, .text⟩) ∧
    loaded.document.render false = .ok ['x', '\n'] ∧
      (loaded.document.lineNumber 2).length = 2 := by
  intro bold d loaded
  have hne : d.cells ≠ [] := List.cons_ne_nil _ _
  have hescape : ∀ cell ∈ d.cells, cell.char ≠ '\x1b' := by decide
  have hplain : d.render false = .ok (d.printed false) := if_pos (by decide)
  have hnumbered : d.render true = .ok (d.printed true) := if_pos (by decide)
  have hglyphs : Screen.read {} (d.printed false) = some
      ⟨[⟨'a', bold⟩, ⟨'\n', {}⟩, ⟨'b', {}⟩, ⟨' ', {}⟩, ⟨' ', {}⟩, ⟨' ', {}⟩, ⟨'c', {}⟩], {},
        .text⟩ := by
    decide +kernel
  obtain ⟨glyphs, hread, hshown⟩ := (render_numbered d).2.2.1 hne hescape _ _ hplain hnumbered
  have hloaded : loaded.document.render false = .ok ['x', '\n'] := by decide +kernel
  have hwidth := (render_numbered loaded.document).2.2.2 noJavaParts {} _ _ rfl rfl _ hloaded 2
    (by decide)
  rw [hglyphs] at hread
  cases hread
  refine ⟨⟨_, _, hplain, hnumbered, hshown.trans ?_⟩, hloaded, hwidth.trans ?_⟩
  · decide +kernel
  · decide +kernel

end TerminalDocument

end SourceEditor

import SourceEditor.Document.Terminal
import SourceEditor.Proofs.Text.Offset

/-!
# What a printed document looks like

A screen reads the printed form of a document one character at a time: escape sequences set the
style, and every other character is shown in the style of the moment. `Screen.display` says what
cells look like on a screen, without any escape sequences: a line end has no style, a tab becomes
spaces up to the next tab stop, and any other character has the style of its cell. Reading the
printed form gives just that and leaves the style cleared (`TerminalDocument.read_printed`),
provided that no character of the document is itself an escape.

The codes of a style are numbers once more when they have been read: the proofs go through
`Style.codeGroups`, whose decimal forms are what is printed. They take up little room, so that a
document is too long to be printed only on account of its own characters and the spaces of its tabs
(`TerminalDocument.printedSize_le`).
-/

namespace SourceEditor

/-! ## Screens -/

/-- The color with the given components, each of which must fit into a byte. -/
def Color.ofComponents? (red green blue : Nat) : Option Color :=
  if red < 256 ∧ green < 256 ∧ blue < 256 then
    some ⟨UInt8.ofNat red, UInt8.ofNat green, UInt8.ofNat blue⟩
  else none

/-- What the codes of an escape sequence make of a style. Zero clears it, and there are codes for
nothing but the attributes of a style. -/
def Style.withCodes : Style → List Nat → Option Style
  | style, [] => some style
  | _, 0 :: codes => withCodes {} codes
  | style, 1 :: codes => withCodes { style with bold := true } codes
  | style, 3 :: codes => withCodes { style with italic := true } codes
  | style, 4 :: codes => withCodes { style with underline := true } codes
  | style, 38 :: 2 :: red :: green :: blue :: codes =>
    (Color.ofComponents? red green blue).bind fun color =>
      withCodes { style with foreground := some color } codes
  | style, 48 :: 2 :: red :: green :: blue :: codes =>
    (Color.ofComponents? red green blue).bind fun color =>
      withCodes { style with background := some color } codes
  | _, _ => none

/-- A character on a screen and the style that it is shown in. -/
structure Glyph where
  char : Char
  style : Style
  deriving DecidableEq, Repr

/-- Where a screen is in its input. -/
inductive ScreenInput where
  | text
  /-- After the escape character. -/
  | escape
  /-- Inside an escape sequence. A code without digits counts as zero. -/
  | codes (earlier : List Nat) (current : Nat)
  deriving DecidableEq, Repr

/-- A screen: what it shows, and the style of what comes next. -/
structure Screen where
  glyphs : List Glyph := []
  style : Style := {}
  input : ScreenInput := .text
  deriving DecidableEq, Repr

namespace Screen

/-- Reads a character. There is no way on if it is out of place in an escape sequence. -/
def put (s : Screen) (c : Char) : Option Screen :=
  match s.input with
  | .text =>
    if c = '\x1b' then some { s with input := .escape }
    else some { s with glyphs := s.glyphs ++ [⟨c, s.style⟩] }
  | .escape => if c = '[' then some { s with input := .codes [] 0 } else none
  | .codes earlier current =>
    if c.isDigit then
      some { s with input := .codes earlier (10 * current + (c.toNat - '0'.toNat)) }
    else if c = ';' then some { s with input := .codes (earlier ++ [current]) 0 }
    else if c = 'm' then
      (s.style.withCodes (earlier ++ [current])).map fun style => { s with style, input := .text }
    else none

/-- Reads a text. -/
def read (s : Screen) (text : List Char) : Option Screen := text.foldlM put s

/-- The column of the first tab stop after a column. -/
def nextStop (tab column : Nat) : Nat := (column / tab + 1) * tab

/-- What cells look like from a column of a line on, with the given distance of tab stops. -/
def display (tab : Nat) : (column : Nat) → List Cell → List Glyph
  | _, [] => []
  | column, cell :: cells =>
    let style := cell.style.getD {}
    if cell.char = '\n' then ⟨'\n', {}⟩ :: display tab 0 cells
    else if cell.char = '\t' then
      List.replicate (nextStop tab column - column) ⟨' ', style⟩ ++
        display tab (nextStop tab column) cells
    else ⟨cell.char, style⟩ :: display tab (column + 1) cells

/-! ## Reading in parts -/

variable {s t : Screen} {glyphs : List Glyph} {style : Style}

theorem read_cons (s : Screen) (c : Char) (text : List Char) :
    s.read (c :: text) = (s.put c).bind fun t => t.read text :=
  List.foldlM_cons

theorem read_append_of_eq {front : List Char} (h : s.read front = some t) (back : List Char) :
    s.read (front ++ back) = t.read back := by
  have hsplit : s.read (front ++ back) = (s.read front).bind fun t => t.read back :=
    List.foldlM_append
  rw [hsplit, h, Option.bind_some]

theorem read_char {c : Char} (h : c ≠ '\x1b') :
    read ⟨glyphs, style, .text⟩ [c] = some ⟨glyphs ++ [⟨c, style⟩], style, .text⟩ := by
  simp [read, put, h]

theorem read_spaces (glyphs : List Glyph) (style : Style) (count : Nat) :
    read ⟨glyphs, style, .text⟩ (List.replicate count ' ') =
      some ⟨glyphs ++ List.replicate count ⟨' ', style⟩, style, .text⟩ := by
  induction count generalizing glyphs with
  | zero => simp [read]
  | succ count ih =>
    have hspace : read ⟨glyphs, style, .text⟩ [' '] = _ := read_char (by decide)
    rw [List.replicate_succ, ← List.singleton_append, read_append_of_eq hspace, ih,
      List.replicate_succ, List.append_assoc, List.singleton_append]

/-! ## Codes -/

theorem put_digit {c : Char} (h : c.isDigit = true) (earlier : List Nat) (current : Nat) :
    put ⟨glyphs, style, .codes earlier current⟩ c =
      some ⟨glyphs, style, .codes earlier (10 * current + (c.toNat - '0'.toNat))⟩ :=
  if_pos h

theorem read_digits {digits : List Char} (h : ∀ c ∈ digits, c.isDigit = true) (earlier : List Nat)
    (current : Nat) :
    read ⟨glyphs, style, .codes earlier current⟩ digits =
      some ⟨glyphs, style, .codes earlier (Nat.ofDigitChars 10 digits current)⟩ := by
  induction digits generalizing current with
  | nil => rfl
  | cons c digits ih =>
    rw [List.forall_mem_cons] at h
    rw [read_cons, put_digit h.1, Option.bind_some, ih h.2, Nat.ofDigitChars_cons]

theorem read_decimal (earlier : List Nat) (n : Nat) :
    read ⟨glyphs, style, .codes earlier 0⟩ (TerminalDocument.decimal n) =
      some ⟨glyphs, style, .codes earlier n⟩ := by
  have hdigits : ∀ c ∈ Nat.toDigits 10 n, c.isDigit = true := fun c hc =>
    Nat.isDigit_of_mem_toDigits (by decide) (by decide) hc
  rw [TerminalDocument.decimal, read_digits hdigits,
    Nat.ofDigitChars_toDigits (by decide) (by decide)]

/-- The codes of a sequence take effect at its end. -/
theorem read_codes {codes : List Nat} (h : codes ≠ []) (earlier : List Nat) :
    read ⟨glyphs, style, .codes earlier 0⟩
        (List.intercalate [';'] (codes.map TerminalDocument.decimal) ++ ['m']) =
      (style.withCodes (earlier ++ codes)).map fun style => ⟨glyphs, style, .text⟩ := by
  induction codes generalizing earlier with
  | nil => exact absurd rfl h
  | cons n codes ih =>
    have hn : read ⟨glyphs, style, .codes earlier 0⟩ _ = _ := read_decimal earlier n
    cases codes with
    | nil =>
      rw [List.map_singleton, List.intercalate_singleton, read_append_of_eq hn, read_cons]
      simp [put, read]
    | cons m codes =>
      have hseparator : read ⟨glyphs, style, .codes earlier n⟩ [';'] =
          some ⟨glyphs, style, .codes (earlier ++ [n]) 0⟩ := by
        simp [put, read]
      rw [List.map_cons, List.map_cons, List.intercalate_cons_cons, List.append_assoc,
        List.append_assoc, read_append_of_eq hn, read_append_of_eq hseparator, ← List.map_cons,
        ih (List.cons_ne_nil m codes), List.append_assoc, List.singleton_append]

theorem read_sequence {codes : List Nat} (h : codes ≠ []) :
    read ⟨glyphs, style, .text⟩
        (TerminalDocument.sequence (codes.map TerminalDocument.decimal)) =
      (style.withCodes codes).map fun style => ⟨glyphs, style, .text⟩ := by
  have hopening : read ⟨glyphs, style, .text⟩ ['\x1b', '['] =
      some ⟨glyphs, style, .codes [] 0⟩ := by
    simp [put, read]
  rw [TerminalDocument.sequence, List.append_assoc, read_append_of_eq hopening, read_codes h,
    List.nil_append]

/-- A sequence without codes clears the style. -/
theorem read_sequence_nil : read ⟨glyphs, style, .text⟩ (TerminalDocument.sequence []) =
    some ⟨glyphs, {}, .text⟩ := by
  simp [TerminalDocument.sequence, List.intercalate_nil, read, put, Style.withCodes]

theorem read_reset :
    read ⟨glyphs, style, .text⟩ TerminalDocument.reset = some ⟨glyphs, {}, .text⟩ :=
  read_sequence (List.cons_ne_nil 0 [])

end Screen

/-! ## Styles -/

/-- The codes that set a color for the plane with the given number. -/
def Color.codes (plane : Nat) (c : Color) : List Nat :=
  [plane, 2, c.red.toNat, c.green.toNat, c.blue.toNat]

theorem Color.ofComponents?_toNat (c : Color) :
    ofComponents? c.red.toNat c.green.toNat c.blue.toNat = some c := by
  have hred := c.red.toNat_lt
  have hgreen := c.green.toNat_lt
  have hblue := c.blue.toNat_lt
  rw [ofComponents?, if_pos ⟨hred, hgreen, hblue⟩, UInt8.ofNat_toNat, UInt8.ofNat_toNat,
    UInt8.ofNat_toNat]

namespace Style

/-- The codes that set a style, those of each attribute together. -/
def codeGroups (s : Style) : List (List Nat) :=
  (if s.bold then [[1]] else []) ++ (if s.italic then [[3]] else []) ++
    (if s.underline then [[4]] else []) ++ (s.foreground.map (Color.codes 38)).toList ++
    (s.background.map (Color.codes 48)).toList

/-- The codes of a style make it from the cleared one. -/
theorem withCodes_codeGroups (s : Style) :
    ({} : Style).withCodes s.codeGroups.flatten = some s := by
  obtain ⟨foreground, background, bold, italic, underline⟩ := s
  -- an attribute has codes only if the style sets it
  cases bold <;> cases italic <;> cases underline <;> cases foreground <;> cases background <;>
    simp [codeGroups, withCodes, Color.codes, Color.ofComponents?_toNat]

theorem ne_nil_of_mem_codeGroups {s : Style} {group : List Nat} (h : group ∈ s.codeGroups) :
    group ≠ [] := by
  rintro rfl
  simp [codeGroups, Color.codes] at h

end Style

theorem intercalate_append {separator : List Char} {front back : List (List Char)}
    (hfront : front ≠ []) (hback : back ≠ []) :
    separator.intercalate (front ++ back) =
      separator.intercalate front ++ separator ++ separator.intercalate back := by
  induction front with
  | nil => exact absurd rfl hfront
  | cons part front ih =>
    cases front with
    | nil =>
      rw [List.singleton_append, List.intercalate_cons_of_ne_nil hback, List.intercalate_singleton]
    | cons next front =>
      rw [List.cons_append, List.cons_append, List.intercalate_cons_cons, ← List.cons_append,
        ih (List.cons_ne_nil next front), List.intercalate_cons_cons]
      simp only [List.append_assoc]

/-- Joining groups that are joined themselves joins all that is in them. -/
theorem intercalate_map_intercalate (separator : List Char) {groups : List (List (List Char))}
    (h : ∀ group ∈ groups, group ≠ []) :
    separator.intercalate (groups.map separator.intercalate) =
      separator.intercalate groups.flatten := by
  induction groups with
  | nil => rfl
  | cons group groups ih =>
    rw [List.forall_mem_cons] at h
    cases groups with
    | nil =>
      rw [List.map_singleton, List.intercalate_singleton, List.flatten_singleton]
    | cons next groups =>
      have hrest : (next :: groups).flatten ≠ [] := by
        simp [h.2 next List.mem_cons_self]
      rw [List.map_cons, List.intercalate_cons_of_ne_nil (by simp), ih h.2]
      exact (intercalate_append h.1 hrest).symm

namespace TerminalDocument

theorem styleCodes_eq (s : Style) :
    styleCodes s = s.codeGroups.map fun group => List.intercalate [';'] (group.map decimal) := by
  obtain ⟨foreground, background, bold, italic, underline⟩ := s
  cases bold <;> cases italic <;> cases underline <;> cases foreground <;> cases background <;>
    rfl

theorem sequence_styleCodes (s : Style) :
    sequence (styleCodes s) = sequence (s.codeGroups.flatten.map decimal) := by
  have hgroups : ∀ group ∈ s.codeGroups.map (List.map decimal), group ≠ [] := by
    intro group hgroup
    obtain ⟨codes, hcodes, rfl⟩ := List.mem_map.mp hgroup
    exact mt List.map_eq_nil_iff.mp (Style.ne_nil_of_mem_codeGroups hcodes)
  rw [sequence, sequence, styleCodes_eq, List.map_flatten,
    ← intercalate_map_intercalate _ hgroups, List.map_map]
  rfl

/-! The codes of a style take up little room. -/

/-- A number of eight bits has at most three digits. -/
theorem length_decimal_le (x : UInt8) : (decimal x.toNat).length ≤ 3 :=
  (Nat.length_toDigits_le_iff (by decide) (by decide)).mpr (Nat.lt_trans x.toNat_lt (by decide))

theorem length_colorCode_le {plane : Nat} (hplane : plane < 100) (c : Color) :
    (colorCode plane c).length ≤ 16 := by
  have hdigits : (decimal plane).length ≤ 2 :=
    (Nat.length_toDigits_le_iff (by decide) (by decide)).mpr hplane
  have hred := length_decimal_le c.red
  have hgreen := length_decimal_le c.green
  have hblue := length_decimal_le c.blue
  simp only [colorCode, List.intercalate_cons_cons, List.intercalate_singleton, List.length_append,
    List.length_singleton]
  omega

theorem length_intercalate_le (separator : Char) (parts : List (List Char)) :
    (List.intercalate [separator] parts).length ≤ parts.flatten.length + parts.length := by
  induction parts with
  | nil => exact Nat.le_refl 0
  | cons part parts ih =>
    rw [List.flatten_cons, List.length_append, List.length_cons]
    cases parts with
    | nil =>
      rw [List.intercalate_singleton]
      omega
    | cons next parts =>
      rw [List.intercalate_cons_cons, List.length_append, List.length_append, List.length_singleton]
      omega

theorem length_styleCodes_le (s : Style) :
    (sequence (styleCodes s)).length ≤ 43 := by
  have hflag (b : Bool) (code : Char) :
      ((if b then [[code]] else []) : List (List Char)).flatten.length +
        ((if b then [[code]] else []) : List (List Char)).length ≤ 2 := by
    cases b <;> simp
  have hcolor {plane : Nat} (hplane : plane < 100) (color : Option Color) :
      (color.map (colorCode plane)).toList.flatten.length +
        (color.map (colorCode plane)).toList.length ≤ 17 := by
    cases color with
    | none => exact Nat.zero_le 17
    | some c =>
      have := length_colorCode_le hplane c
      simp only [Option.map_some, Option.toList_some, List.flatten_singleton, List.length_singleton]
      omega
  have hcodes : (styleCodes s).flatten.length + (styleCodes s).length ≤ 40 := by
    have hbold := hflag s.bold '1'
    have hitalic := hflag s.italic '3'
    have hunderline := hflag s.underline '4'
    have hforeground := hcolor (show 38 < 100 by decide) s.foreground
    have hbackground := hcolor (show 48 < 100 by decide) s.background
    simp only [styleCodes, List.flatten_append, List.length_append]
    omega
  have hjoined := length_intercalate_le ';' (styleCodes s)
  simp only [sequence, List.length_append, List.length_cons, List.length_nil]
  omega

theorem length_transition_none_le (old : Option Style) : (transition old none).length ≤ 4 := by
  cases old with
  | none => exact Nat.zero_le _
  | some s => exact Nat.le_refl 4

theorem length_transition_le (old new : Option Style) : (transition old new).length ≤ 47 := by
  cases new with
  | none => exact Nat.le_trans (length_transition_none_le old) (by decide)
  | some s =>
    have hreset : reset.length = 4 := by decide
    have hcodes := length_styleCodes_le s
    unfold transition
    split
    · exact Nat.zero_le _
    · rw [List.length_append]
      omega

end TerminalDocument

namespace Screen

open TerminalDocument

variable {glyphs : List Glyph} {style : Style}

/-- The sequence of a style sets it, if none is set. -/
theorem read_styleCodes (s : Style) :
    read ⟨glyphs, {}, .text⟩ (TerminalDocument.sequence (styleCodes s)) =
      some ⟨glyphs, s, .text⟩ := by
  by_cases hnil : s.codeGroups.flatten = []
  · have hcleared : ({} : Style).withCodes [] = some s := hnil ▸ s.withCodes_codeGroups
    obtain rfl := Option.some.inj hcleared
    exact read_sequence_nil
  · rw [sequence_styleCodes, read_sequence hnil, s.withCodes_codeGroups, Option.map_some]

/-- No style and the empty one look the same. -/
theorem read_transition (old new : Option Style) :
    read ⟨glyphs, old.getD {}, .text⟩ (transition old new) =
      some ⟨glyphs, new.getD {}, .text⟩ := by
  unfold transition
  by_cases hsame : new = old
  · rw [if_pos hsame, hsame]
    rfl
  · rw [if_neg hsame]
    cases new with
    | none => exact read_reset
    | some s =>
      refine (read_append_of_eq read_reset _).trans ?_
      exact read_styleCodes s

/-! ## Documents -/

theorem lineHead_of_eq_none {format : PrintFormat} (h : format.gutterWidth = none) (line : Nat) :
    format.lineHead line = [] := by
  rw [PrintFormat.lineHead, h]

/-- The spaces of a tab reach to the next stop. -/
theorem add_sub_mod_eq_nextStop {tab : Nat} (htab : 0 < tab) (column : Nat) :
    column + (tab - column % tab) = nextStop tab column := by
  have hdivision := Nat.div_add_mod column tab
  have hrest := Nat.mod_lt column htab
  rw [nextStop, Nat.add_mul, Nat.one_mul, Nat.mul_comm]
  omega

/-- **Reading the printed form of cells** shows what they look like and clears the style. The screen
starts in the style that the printed form takes to be set. -/
theorem read_print {format : PrintFormat} (hgutter : format.gutterWidth = none)
    (htab : 0 < format.tab) {cells : List Cell} (hescape : ∀ cell ∈ cells, cell.char ≠ '\x1b')
    (glyphs : List Glyph) (current : Option Style) (column line : Nat) :
    read ⟨glyphs, current.getD {}, .text⟩
        ((format.print current column line cells).flatMap Piece.chars) =
      some ⟨glyphs ++ display format.tab column cells, {}, .text⟩ := by
  induction cells generalizing glyphs current column line with
  | nil =>
    rw [display, List.append_nil]
    cases current with
    | none => rfl
    | some s => exact (congrArg _ (List.append_nil reset)).trans read_reset
  | cons cell cells ih =>
    rw [List.forall_mem_cons] at hescape
    obtain ⟨hchar, hcells⟩ := hescape
    have hstyle : read ⟨glyphs, current.getD {}, .text⟩ (transition current cell.style) = _ :=
      read_transition _ _
    rw [PrintFormat.print, List.flatMap_cons, display]
    refine (read_append_of_eq hstyle _).trans ?_
    by_cases hnewline : cell.char = '\n'
    · have hend : read ⟨glyphs, cell.style.getD {}, .text⟩ (transition cell.style none) =
          some ⟨glyphs, {}, .text⟩ := read_transition _ _
      have hline : read ⟨glyphs, cell.style.getD {}, .text⟩ (transition cell.style none ++ ['\n']) =
          some ⟨glyphs ++ [⟨'\n', {}⟩], {}, .text⟩ :=
        (read_append_of_eq hend _).trans (read_char (by decide))
      rw [if_pos hnewline, if_pos hnewline, List.flatMap_cons, lineHead_of_eq_none hgutter]
      refine (read_append_of_eq hline _).trans ?_
      refine (ih hcells (glyphs ++ [⟨'\n', {}⟩]) none 0 (line + 1)).trans ?_
      rw [List.append_assoc, List.singleton_append]
    · rw [if_neg hnewline, if_neg hnewline]
      by_cases hfill : cell.char = '\t'
      · have hstop := add_sub_mod_eq_nextStop htab column
        rw [if_pos hfill, if_pos hfill, List.flatMap_cons]
        refine (read_append_of_eq (read_spaces _ _ _) _).trans ?_
        rw [ih hcells, List.append_assoc, ← hstop, Nat.add_sub_cancel_left]
      · rw [if_neg hfill, if_neg hfill, List.flatMap_cons]
        refine (read_append_of_eq (read_char hchar) _).trans ?_
        rw [ih hcells, List.append_assoc, List.singleton_append]

/-- Apart from the spaces of tabs, no cell takes more than 256 bytes. -/
theorem totalSize_print_le {format : PrintFormat} (hgutter : format.gutterWidth = none)
    (htab : 0 < format.tab) (cells : List Cell) (current : Option Style) (column line : Nat) :
    Piece.totalSize (format.print current column line cells) ≤
      (display format.tab column cells).length + 256 * (cells.length + 1) := by
  induction cells generalizing current column line with
  | nil =>
    cases current with
    | none => exact Nat.zero_le _
    | some s => exact (show Piece.totalSize [.text reset] ≤ 256 by decide)
  | cons cell cells ih =>
    have hstyle := byteLength_le (transition current cell.style)
    have hlength := length_transition_le current cell.style
    rw [PrintFormat.print, Piece.totalSize, Piece.size, display, List.length_cons]
    by_cases hnewline : cell.char = '\n'
    · have hend := byteLength_le (transition cell.style none ++ ['\n'])
      have hendLength := length_transition_none_le cell.style
      have hrest := ih none 0 (line + 1)
      rw [List.length_append, List.length_singleton] at hend
      rw [if_pos hnewline, if_pos hnewline, Piece.totalSize, Piece.size,
        lineHead_of_eq_none hgutter, List.length_cons]
      omega
    · rw [if_neg hnewline, if_neg hnewline]
      by_cases hfill : cell.char = '\t'
      · have hstop := add_sub_mod_eq_nextStop htab column
        have hrest := ih cell.style (nextStop format.tab column) line
        rw [if_pos hfill, if_pos hfill, Piece.totalSize, Piece.size, hstop, List.length_append,
          List.length_replicate]
        omega
      · have hchar := byteLength_le [cell.char]
        have hrest := ih cell.style (column + 1) line
        rw [List.length_singleton] at hchar
        rw [if_neg hfill, if_neg hfill, Piece.totalSize, Piece.size, List.length_cons]
        omega

end Screen

namespace TerminalDocument

/-- Without line numbers the printed form is that of the cells. -/
theorem printed_eq (d : TerminalDocument) :
    d.printed false = ((d.printFormat false).print none 0 1 d.cells).flatMap Piece.chars := by
  rw [printed, pieces]
  cases d.cells <;> rfl

theorem printedSize_eq (d : TerminalDocument) :
    d.printedSize false = Piece.totalSize ((d.printFormat false).print none 0 1 d.cells) := by
  rw [printedSize, pieces]
  cases d.cells with
  | nil => rfl
  | cons cell cells => exact Nat.zero_add _

theorem tab_printFormat_pos (d : TerminalDocument) (numbered : Bool) :
    0 < (d.printFormat numbered).tab :=
  Nat.le_max_right _ 1

/-- **The printed form of a document shows it.** -/
theorem read_printed {d : TerminalDocument} (h : ∀ cell ∈ d.cells, cell.char ≠ '\x1b') :
    Screen.read {} (d.printed false) =
      some ⟨Screen.display (d.printFormat false).tab 0 d.cells, {}, .text⟩ := by
  rw [printed_eq]
  exact Screen.read_print rfl (d.tab_printFormat_pos false) h [] none 0 1

theorem printedSize_le (d : TerminalDocument) :
    d.printedSize false ≤ (Screen.display (d.printFormat false).tab 0 d.cells).length +
      256 * (d.cells.length + 1) := by
  rw [printedSize_eq]
  exact Screen.totalSize_print_le rfl (d.tab_printFormat_pos false) d.cells none 0 1

end TerminalDocument

end SourceEditor

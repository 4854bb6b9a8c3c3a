import SourceEditor.Command.Highlighting
import SourceEditor.Proofs.Document.Screen
import SourceEditor.Proofs.Session.Loading
import SourceEditor.Proofs.Session.Surfaces

/-!
# What is shown of a highlighted file

Three things come together. A text that has been loaded in memory has the styles that it is to have
and no others (`Session.Loaded`); the session on the terminal runs in step with the one in memory
(`Session.lockStep_shownBy`); and a screen that reads the printed form of a document shows that
document (`TerminalDocument.read_printed`). So the printed form of a file shows its text, in the
styles that language and options call for.
-/

namespace SourceEditor

/-- The characters of a text, in the styles that they are to have. -/
def expectedCells (java : ExternalParser) (options : Options) (language : Option Language)
    (text : List Char) : List Cell :=
  text.mapIdx fun i c => ⟨c, expectedStyle? java options language text i⟩

theorem char_mem_of_mem_expectedCells {java : ExternalParser} {options : Options}
    {language : Option Language} {text : List Char} {cell : Cell}
    (h : cell ∈ expectedCells java options language text) : cell.char ∈ text := by
  obtain ⟨i, hi, rfl⟩ := List.mem_mapIdx.mp h
  exact List.getElem_mem hi

namespace Session

variable {java : ExternalParser} {options : Options} {language : Option Language}
  {text : List Char} {s : Session MemoryDocument}

theorem Loaded.cells_shown (h : Loaded java options language text s) :
    s.document.shown.cells = expectedCells java options language text := by
  rw [MemoryDocument.shown, h.chars_eq, h.text_eq, h.styles_eq, expectedCells]
  refine List.ext_getElem ?_ fun i hi hi' => ?_
  · simp
  · simp

/-- Tab stops are where the options put them, if there is a text to be shown. -/
theorem Loaded.display_shown (h : Loaded java options language text s) (numbered : Bool) :
    Screen.display (s.document.shown.printFormat numbered).tab 0 s.document.shown.cells =
      Screen.display (max options.tabSize 1) 0 (expectedCells java options language text) := by
  rw [h.cells_shown]
  by_cases hnil : text = []
  · rw [hnil]
    rfl
  · have htab : s.document.tabSize = some options.tabSize := by
      rw [← h.options_eq]
      exact h.tabSize_eq (h.text_eq.symm ▸ hnil)
    rw [TerminalDocument.printFormat, MemoryDocument.shown, htab, Option.getD_some]

end Session

namespace HighlightRequest

open Session

/-- The style that is wanted for the character at an offset, in the colors of the settings: that of
a name if there is one, otherwise that of its token. Either is left out if the settings have it
switched off or the request does not want it, and without a language there is no style. -/
def wantedStyle? (java : ExternalParser) (request : HighlightRequest) (settings : Settings)
    (language : Option Language) (text : List Char) (i : Nat) : Option Style :=
  match language with
  | none => none
  | some l =>
    let name := if settings.semanticHighlighting = true ∧ request.noSemantic = false then
      l.nameStyle? java settings.colors text i else none
    let token := if settings.tokenHighlighting = true ∧ request.noLexical = false then
      l.tokenStyle? settings.colors text i else none
    name.or token

/-- What a screen is to show of a text in a file of the given name: its characters without the
carriage returns, in the wanted styles. -/
def expected (java : ExternalParser) (request : HighlightRequest) (settings : Settings)
    (fileName text : List Char) : List Glyph :=
  let shown := text.filter fun c => c ≠ '\r'
  Screen.display (max settings.tabSize 1) 0 (shown.mapIdx fun i c =>
    ⟨c, request.wantedStyle? java settings (Language.detect? fileName) shown i⟩)

/-- The session is started with options that ask for the wanted styles. -/
theorem wantedStyle?_eq (java : ExternalParser) (request : HighlightRequest) (settings : Settings)
    (language : Option Language) (text : List Char) (i : Nat) :
    request.wantedStyle? java settings language text i =
      expectedStyle? java (request.options settings) language text i := by
  cases language with
  | none => rfl
  | some l =>
    simp only [wantedStyle?, expectedStyle?, options, Settings.options, Bool.and_eq_true,
      Bool.not_eq_true']

theorem expected_eq (java : ExternalParser) (request : HighlightRequest) (settings : Settings)
    (fileName text : List Char) :
    request.expected java settings fileName text =
      Screen.display (max settings.tabSize 1) 0 (expectedCells java (request.options settings)
        (Language.detect? fileName) (EditPolicy.withoutReturns text)) := by
  simp only [expected, ← EditPolicy.withoutReturns_eq, wantedStyle?_eq, expectedCells]

/-- The session ends with the text loaded. -/
theorem display_eq (java : ExternalParser) {options : Options} {policy : EditPolicy}
    (hpolicy : options.policy = .ok policy) (fileName text : List Char) :
    ∃ s, Loaded java options (Language.detect? fileName) (EditPolicy.withoutReturns text) s ∧
      display java fileName text (fresh options policy).shown = .ok () s.shown := by
  obtain ⟨s, hmemory, hs⟩ :=
    setLanguage_load_eq (coherent_fresh hpolicy) (Language.detect? fileName) text
  have hswitch : (switchLanguage java fileName >>= fun _ => load java text) (fresh options policy) =
      .ok () s := by
    rw [Update.bind_of_ok (switchLanguage_eq _ fileName), ← hmemory,
      Update.bind_of_ok (setLanguage_eq _ _)]
  have hstep := lockStep_shownBy java
  have hshown : ShownBy (fresh options policy) (fresh options policy).shown :=
    ⟨aligned_fresh hpolicy, rfl⟩
  have halike : Update.EndAlike ShownBy
      ((switchLanguage java fileName >>= fun _ => load java text) (fresh options policy))
      (display java fileName text (fresh options policy).shown) :=
    (hstep.switchLanguage hshown rfl).bind fun _ _ _ _ hR => hstep.load hR text
  rw [hswitch] at halike
  refine ⟨s, hs, ?_⟩
  obtain ⟨_, _, s', t, hs', ht, hR⟩ | ⟨fault, s', t, hs', -⟩ := halike.result_cases
  · cases hs'
    rw [ht, hR.eq_shown]
  · cases hs'

theorem render_eq (java : ExternalParser) {request : HighlightRequest} {settings : Settings}
    {policy : EditPolicy} (hpolicy : (request.options settings).policy = .ok policy)
    (fileName text : List Char) :
    ∃ s, Loaded java (request.options settings) (Language.detect? fileName)
        (EditPolicy.withoutReturns text) s ∧
      request.render java settings fileName text =
        s.document.shown.render request.lineNumbers := by
  obtain ⟨s, hs, hdisplay⟩ := display_eq java hpolicy fileName text
  refine ⟨s, hs, ?_⟩
  rw [render, start_terminal_eq, hpolicy]
  simp only [Except.map, hdisplay]
  rfl

theorem render_of_policy_eq_error (java : ExternalParser) {request : HighlightRequest}
    {settings : Settings} {fault : Fault} (h : (request.options settings).policy = .error fault)
    (fileName text : List Char) :
    request.render java settings fileName text = .error fault := by
  rw [render, start_terminal_eq, h]
  rfl

theorem exists_policy {request : HighlightRequest} {settings : Settings}
    (h : settings.indentWithSpaces = true → settings.tabSize ≤ maxAllocation) :
    ∃ policy, (request.options settings).policy = .ok policy := by
  unfold Options.policy
  by_cases hspaces : settings.indentWithSpaces = true
  · exact ⟨_, (if_pos hspaces).trans (if_pos (h hspaces))⟩
  · exact ⟨_, if_neg hspaces⟩

/-- **The printed form of a file shows its text.** A screen that reads what is printed of a text
without escape characters shows every character of it in the style that it is to have, with a
cleared style at the end. The text is printed if there is room for what is shown, with 256 bytes to
spare for each character, and for the spaces of a typed tab if there are to be any. -/
theorem read_render (java : ExternalParser) (request : HighlightRequest) (settings : Settings)
    (fileName : List Char) {text : List Char} (hnumbers : request.lineNumbers = false)
    (hescape : '\x1b' ∉ text) :
    ((settings.indentWithSpaces = true → settings.tabSize ≤ maxAllocation) →
      (request.expected java settings fileName text).length + 256 * (text.length + 1) ≤
        maxAllocation →
      ∃ output, request.render java settings fileName text = .ok output) ∧
    ∀ output, request.render java settings fileName text = .ok output →
      Screen.read {} output =
        some ⟨request.expected java settings fileName text, {}, .text⟩ := by
  refine ⟨fun htab hroom => ?_, fun output houtput => ?_⟩
  · obtain ⟨policy, hpolicy⟩ := exists_policy htab
    obtain ⟨s, hs, hrender⟩ := render_eq java hpolicy fileName text
    have hsize := s.document.shown.printedSize_le
    have hlength : s.document.shown.cells.length ≤ text.length := by
      rw [hs.cells_shown, expectedCells, List.length_mapIdx]
      exact List.length_filter_le _ _
    rw [hs.display_shown] at hsize
    rw [expected_eq] at hroom
    rw [hrender, hnumbers]
    refine ⟨_, if_pos (hsize.trans (le_trans ?_ hroom))⟩
    exact Nat.add_le_add (Nat.le_refl _) (Nat.mul_le_mul_left _ (Nat.succ_le_succ hlength))
  · cases hpolicy : (request.options settings).policy with
    | error fault =>
      rw [render_of_policy_eq_error java hpolicy] at houtput
      cases houtput
    | ok policy =>
      obtain ⟨s, hs, hrender⟩ := render_eq java hpolicy fileName text
      have hcells : ∀ cell ∈ s.document.shown.cells, cell.char ≠ '\x1b' := by
        rw [hs.cells_shown]
        intro cell hcell heq
        have hmem := List.mem_of_mem_filter (char_mem_of_mem_expectedCells hcell)
        exact hescape (heq ▸ hmem)
      rw [hrender, hnumbers, TerminalDocument.render] at houtput
      split at houtput
      · cases houtput
        rw [TerminalDocument.read_printed hcells, hs.display_shown, expected_eq]
        rfl
      · cases houtput

/-- A function, a tab and a comment, on a line that ends with a carriage return, in a scheme that
underlines the names of functions and writes everything else in bold. Without tokens only the name
is styled, and without names it is a token as any other. -/
theorem read_render_flags :
    let file := ['a', '.', 'k', 't']
    let text := ['f', 'u', 'n', ' ', 'f', '\t', '/', '/', '\r', '\n']
    let underlined : Style := { underline := true }
    let bold : Style := { bold := true }
    let settings : Settings :=
      { tabSize := 3
        colors := ⟨fun c => if c = .functionDeclaration then underlined else bold⟩ }
    let Shows (request : HighlightRequest) (glyphs : List Glyph) : Prop :=
      ∃ output, request.render noJavaParts settings file text = .ok output ∧
        Screen.read {} output = some ⟨glyphs, {}, .text⟩
    '\x1b' ∉ text ∧
      Shows { noLexical := true }
        [⟨'f', {}⟩, ⟨'u', {}⟩, ⟨'n', {}⟩, ⟨' ', {}⟩, ⟨'f', underlined⟩, ⟨' ', {}⟩, ⟨'/', {}⟩,
          ⟨'/', {}⟩, ⟨'\n', {}⟩] ∧
      Shows { noSemantic := true }
        [⟨'f', bold⟩, ⟨'u', bold⟩, ⟨'n', bold⟩, ⟨' ', {}⟩, ⟨'f', bold⟩, ⟨' ', {}⟩, ⟨'/', bold⟩,
          ⟨'/', bold⟩, ⟨'\n', {}⟩] := by
  intro file text underlined bold settings Shows
  have hescape : '\x1b' ∉ text := by decide
  have hshows (request : HighlightRequest) {glyphs : List Glyph}
      (hnumbers : request.lineNumbers = false)
      (hexpected : request.expected noJavaParts settings file text = glyphs)
      (hroom : glyphs.length + 256 * (text.length + 1) ≤ maxAllocation) : Shows request glyphs := by
    obtain ⟨htotal, hread⟩ := read_render noJavaParts request settings file hnumbers hescape
    rw [hexpected] at htotal hread
    obtain ⟨output, houtput⟩ := htotal (by decide) hroom
    exact ⟨output, houtput, hread output houtput⟩
  refine ⟨hescape, hshows _ rfl ?_ (by decide), hshows _ rfl ?_ (by decide)⟩
  · decide +kernel
  · decide +kernel

end HighlightRequest

end SourceEditor

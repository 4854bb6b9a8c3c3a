import SourceEditor.Proofs.Highlight.Names
import SourceEditor.Proofs.Session.Colors
import SourceEditor.Proofs.Token.Lookahead

/-!
# Highlights that stay

How a token is highlighted stays as it is under two changes.

* An edit leaves the tokens that stop three characters before it as they are, and the styles of
  their characters too (`mem_tokens_of_agree`).
* The highlights of names in a Kotlin source leave out the tokens that are no part of a name
  (`Kotlin.highlights_only_names`). When a session highlights the source, such tokens get the styles
  of their kinds.
-/

namespace SourceEditor

/-! ## Before an edit -/

theorem Edit.Makes.exists_append {e : Edit} {before after : List Char} (h : e.Makes before after) :
    ∃ front back other, before = front ++ back ∧ after = front ++ other ∧
      front.length = e.offset := by
  cases h with
  | insert front text back => exact ⟨front, back, text ++ back, rfl, by simp, rfl⟩
  | remove front text back => exact ⟨front, text ++ back, back, by simp, rfl, rfl⟩

/-- **Lexing looks three characters ahead.** Of two texts with the same first `n` characters, each
token of one that stops three characters before that is a token of the other. So an edit changes
neither the tokens that stop three characters before it nor the styles of their characters. -/
theorem mem_tokens_of_agree (language : Language) (text other : List Char) :
    (∀ n, n ≤ text.length → n ≤ other.length → text.take n = other.take n →
      ∀ t ∈ language.tokens text, t.stop + 3 ≤ n → t ∈ language.tokens other) ∧
    ∀ e : Edit, e.Makes text other → ∀ t ∈ language.tokens text, t.stop + 3 ≤ e.offset →
      t ∈ language.tokens other ∧ ∀ colors i, t.start ≤ i → i < t.stop →
        language.tokenStyle? colors other i = language.tokenStyle? colors text i := by
  constructor
  · intro n hn _ hagree t ht hle
    have hlength : (text.take n).length = n := List.length_take_of_le hn
    rw [← List.take_append_drop n text] at ht
    rw [← List.take_append_drop n other, ← hagree]
    exact language.mem_tokens_append _ _ _ ht (hlength.symm ▸ hle)
  · intro e he t ht hle
    obtain ⟨front, back, rest, rfl, rfl, hoffset⟩ := he.exists_append
    have ht' := language.mem_tokens_append front back rest ht (hoffset.symm ▸ hle)
    refine ⟨ht', fun colors i hstart hstop => ?_⟩
    rw [language.tokenStyle?_of_mem colors ht' hstart hstop,
      language.tokenStyle?_of_mem colors ht hstart hstop]

/-- A number that could still have an exponent, and a digit that comes too late for it. -/
theorem mem_tokens_of_agree_exponent :
    let text := ['1', 'e', '+', 'y']
    let number : Token := ⟨.integerLiteral, 0, ['1']⟩
    Edit.Makes ⟨.insert, 4, ['5']⟩ text (text ++ ['5']) ∧
      number ∈ Language.kotlin.tokens text ∧ number ∈ Language.kotlin.tokens (text ++ ['5']) ∧
      Language.kotlin.tokenStyle? .standard (text ++ ['5']) 0 =
        Language.kotlin.tokenStyle? .standard text 0 := by
  intro text number
  have hmakes : Edit.Makes ⟨.insert, 4, ['5']⟩ text (text ++ ['5']) := .insert text ['5'] []
  have hnumber : number ∈ Language.kotlin.tokens text := by decide +kernel
  obtain ⟨hagree, hedit⟩ := mem_tokens_of_agree .kotlin text (text ++ ['5'])
  have hstyle := (hedit _ hmakes number hnumber (by decide)).2
  exact ⟨hmakes, hnumber, hagree 4 (by decide) (by decide) rfl number hnumber (by decide),
    hstyle .standard 0 (by decide) (by decide)⟩

/-- Two characters after it do not decide about a number. -/
example : (⟨.integerLiteral, 0, ['1']⟩ : Token) ∉ Language.kotlin.tokens ['1', 'e', '+', '5'] := by
  decide +kernel

/-! ## Beside the names -/

namespace Kotlin

/-- Highlighting of names in a Kotlin source concerns names only. -/
structure OnlyNames (source : List Char) : Prop where
  /-- A highlight covers tokens in a row, all of them parts of a name. -/
  covers : ∀ h ∈ Language.kotlin.semanticHighlights (TokenTree.parse source),
    h.range.start < h.range.stop ∧ h.range.stop ≤ source.length ∧ CoversName source h.range
  /-- Whatever has been painted on another token stays when names are painted. -/
  spares : ∀ t ∈ tokens Rules.kotlin source, t.isNamePart = false →
    ∀ i, t.start ≤ i → i < t.stop → ∀ (colors : Scheme) (cache : Cache),
      (Session.paint colors
        (Language.kotlin.semanticHighlights (TokenTree.parse source)) cache).get? i = cache.get? i
  /-- When tokens and names are both highlighted, the style that is written to the document on
  another token is the one of its kind, or none. -/
  keeps : ∀ t ∈ tokens Rules.kotlin source, t.isNamePart = false →
    ∀ i, t.start ≤ i → i < t.stop → ∀ (java : ExternalParser) (options : Options)
      (s : Session MemoryDocument), Session.Reached java s →
      Session.Shows s source (some .kotlin) options → options.tokenHighlighting = true →
      options.semanticHighlighting = true → ∃ runs u, Session.reparse java s = .ok runs u ∧
        Run.lastStyle runs i = t.kind.category?.map options.colors.style

/-- **Only names are highlighted** in a Kotlin source beyond its tokens, whether or not its brackets
are balanced. -/
theorem highlights_only_names (source : List Char) : OnlyNames source where
  covers h hmem := by
    have hcovers := coversName_of_mem_highlights hmem
    exact ⟨hcovers.bounds.1, hcovers.bounds.2, hcovers⟩
  spares t ht hpart i hstart hstop colors cache :=
    get?_paint_of_apart colors (not_covers_of_not_isNamePart ht hpart hstart hstop) cache
  keeps t ht hpart i hstart hstop java options s hreached hshows htokens _ := by
    have haligned := hreached.coherent.toAligned
    have hi : i < s.buffer.length := by
      have hle := (tiles_tokens Rules.productive_kotlin source).stop_le t ht
      rw [haligned.length_eq, hshows.text_eq]
      omega
    refine ⟨_, _, Session.reparse_eq java s, ?_⟩
    rw [(haligned.paintedRuns_decomposes java).lastStyle_eq, if_pos hi, Session.expectedStyle?,
      hshows.options_eq, hshows.language_eq, hshows.text_eq]
    exact expectedStyle?_of_not_isNamePart java htokens ht hpart hstart hstop

end Kotlin

end SourceEditor

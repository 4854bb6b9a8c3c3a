import SourceEditor.Proofs.Session.Timeline

/-!
# How far the content decides about the styles

Text, language and options say which style a character is to have, or that it is to have none.
Highlighting gives the styles that are to be there, but it does not take styles away
(`Aligned.styleAt?_refreshed`). So two sessions with one content agree on the characters that are to
have a style. On any other character a style may be left over from the past: the character may have
stood in a comment (`Kept`).
-/

namespace SourceEditor

/-! ## A character in a comment -/

/-- A text that starts like a block comment has one as its first token, with at least one character
after the opening. -/
theorem exists_tokens_blockComment {rules : Rules} (h : rules.Productive) (c : Char)
    (cs : List Char) :
    ∃ token rest, tokens rules ('/' :: '*' :: c :: cs) = token :: rest ∧
      token.kind = blockCommentKind (c :: cs) ∧ token.start = 0 ∧ 2 < token.stop := by
  have hslash : Unicode.isWhiteSpace '/' = false := by decide
  have hpos : 0 < blockCommentLength rules.nestedComments 1 (c :: cs) :=
    blockCommentLength_pos _ 0 c cs
  have hnext : (Lexer.start ('/' :: '*' :: c :: cs)).next rules = .ok (some
      (⟨blockCommentKind (c :: cs), 0, ('/' :: '*' :: c :: cs).take
          (2 + blockCommentLength rules.nestedComments 1 (c :: cs))⟩,
        ⟨2 + blockCommentLength rules.nestedComments 1 (c :: cs), ('/' :: '*' :: c :: cs).drop
          (2 + blockCommentLength rules.nestedComments 1 (c :: cs)), []⟩)) := by
    simp [Lexer.next, Lexer.start, Lexer.cut, codeToken, plainToken?, hslash]
  have hlex := lex_eq_ok h ('/' :: '*' :: c :: cs)
  rw [lex, Lexer.tokens] at hlex
  split at hlex
  · cases hlex
  · next hnone => simp [hnext] at hnone
  · next token after hsome =>
    split at hlex
    · cases hlex
    · next rest _ =>
      rw [hnext] at hsome
      cases hsome
      refine ⟨_, rest, (Except.ok.inj hlex).symm, rfl, rfl, ?_⟩
      simp only [Token.stop, List.length_take, List.length_cons]
      omega

theorem isSome_category?_blockCommentKind (cs : List Char) :
    (blockCommentKind cs).category?.isSome = true := by
  unfold blockCommentKind
  split
  · split <;> rfl
  · rfl

/-- The first character of a comment is to have a style, whatever follows it. -/
theorem isSome_expectedStyle?_blockComment (java : ExternalParser) (c : Char) (cs : List Char) :
    (expectedStyle? java {} (some .kotlin) ('/' :: '*' :: c :: cs) 2).isSome = true := by
  obtain ⟨token, rest, htokens, hkind, hstart, hstop⟩ :=
    exists_tokens_blockComment Rules.productive_kotlin c cs
  have hcategory := isSome_category?_blockCommentKind (c :: cs)
  rw [← hkind] at hcategory
  have hpainted : ¬ (token.kind = .whitespace ∨ token.kind = .badCharacter) := by
    rw [← token.kind.category?_eq_none_iff]
    exact Option.isSome_iff_ne_none.mp hcategory
  have htoken : (Language.kotlin.tokenStyle? Scheme.standard ('/' :: '*' :: c :: cs) 2).isSome =
      true := by
    have hkotlin : Language.kotlin.tokens ('/' :: '*' :: c :: cs) = token :: rest := htokens
    simp [Language.tokenStyle?, hkotlin, hstart, hstop, hpainted, hcategory]
  rw [expectedStyle?, Option.isSome_or]
  exact Bool.or_eq_true_iff.mpr (Or.inr htoken)

/-! ## Styles move with their characters -/

namespace MemoryDocument

variable {d : MemoryDocument} {offset : Nat}

/-- A character after an insertion keeps its style. -/
theorem styleAt?_inserted (text : List Char) {i : Nat} (hi : offset ≤ i)
    (hoffset : offset ≤ d.styles.length) :
    (d.inserted offset text).styleAt? (text.length + i) = d.styleAt? i := by
  have hfront : (d.styles.take offset ++ List.replicate text.length none).length ≤
      text.length + i := by
    simp only [List.length_append, List.length_take, List.length_replicate]
    omega
  have hplace : offset + (text.length + i -
      (d.styles.take offset ++ List.replicate text.length none).length) = i := by
    simp only [List.length_append, List.length_take, List.length_replicate]
    omega
  rw [styleAt?, inserted, List.getElem?_append_right hfront, List.getElem?_drop, hplace, styleAt?]

/-- A character after a removal keeps its style. -/
theorem styleAt?_removed (count : Nat) {i : Nat} (hi : offset ≤ i)
    (hoffset : offset ≤ d.styles.length) :
    (d.removed offset count).styleAt? i = d.styleAt? (count + i) := by
  have hfront : (d.styles.take offset).length ≤ i := by
    rw [List.length_take]
    omega
  have hplace : offset + count + (i - (d.styles.take offset).length) = count + i := by
    rw [List.length_take]
    omega
  rw [styleAt?, removed, List.getElem?_append_right hfront, List.getElem?_drop, hplace, styleAt?]

end MemoryDocument

namespace EditPolicy

theorem withoutReturns_of_not_mem {text : List Char} (h : '\r' ∉ text) :
    withoutReturns text = text := by
  simp only [withoutReturns, List.filter_eq_self, bne_iff_ne]
  rintro c hc rfl
  exact h hc

theorem planInsert_of_two_le (policy : EditPolicy) (b : Buffer) (offset : Nat) {text : List Char}
    (hlength : 2 ≤ text.length) (hreturn : '\r' ∉ text) :
    policy.planInsert b offset text = ⟨offset, text, 0⟩ := by
  rw [planInsert, withoutReturns_of_not_mem hreturn]
  split
  · simp at hlength
  · rfl

theorem planRemove_of_ne_one (policy : EditPolicy) (b : Buffer) (offset : Nat) {count : Nat}
    (hcount : count ≠ 1) : policy.planRemove b offset count = ⟨offset, count⟩ := by
  simp [planRemove, hcount]

end EditPolicy

namespace Session

variable {java : ExternalParser} {s : Session MemoryDocument} {front back : List Char}

/-! ## Content -/

/-- What a session shows: a text, in a language, by options. -/
structure Shows (s : Session MemoryDocument) (text : List Char) (language : Option Language)
    (options : Options) : Prop where
  text_eq : s.buffer.text = text
  language_eq : s.language = language
  options_eq : s.options = options

/-- A session that operations on a new document lead to. -/
def Reached (java : ExternalParser) (s : Session MemoryDocument) : Prop :=
  ∃ options s₀ operations, start ({} : MemoryDocument) options = .ok s₀ ∧
    run java operations s₀ = s

/-- A new session that selects a language and loads a text. -/
def opened (java : ExternalParser) (options : Options) (policy : EditPolicy)
    (language : Option Language) (text : List Char) : Session MemoryDocument :=
  run java [.setLanguage language, .load text] (fresh options policy)

theorem Reached.coherent (h : Reached java s) : Coherent java s := by
  obtain ⟨options, s₀, operations, hstart, rfl⟩ := h
  exact ((sound_of_start hstart).run operations).toCoherent

theorem loaded_opened (java : ExternalParser) {options : Options} {policy : EditPolicy}
    (hpolicy : options.policy = .ok policy) (language : Option Language) (text : List Char) :
    Loaded java options language (EditPolicy.withoutReturns text)
      (opened java options policy language text) := by
  have hset : setLanguage java language (fresh options policy) = _ := setLanguage_eq _ language
  obtain ⟨t, heq, ht⟩ := setLanguage_load_eq (coherent_fresh hpolicy) language text
  rw [Update.bind_of_ok hset] at heq
  have hopened : opened java options policy language text = t := by
    change (perform java (.load text)).final ((perform java (.setLanguage language)).final _) = t
    rw [perform, perform, Update.final_map, Update.final_map, Update.final_of_ok hset,
      Update.final_of_ok heq]
  rw [hopened]
  exact ht

/-- A new session has the styles that its content gives, and no others. -/
theorem opened_eq (java : ExternalParser) {options : Options} {policy : EditPolicy}
    (hpolicy : options.policy = .ok policy) (language : Option Language) {text : List Char}
    (hreturn : '\r' ∉ text) :
    Coherent java (opened java options policy language text) ∧
      Shows (opened java options policy language text) text language options ∧
      ∀ i < text.length, (opened java options policy language text).document.styleAt? i =
        SourceEditor.expectedStyle? java options language text i := by
  have hloaded := loaded_opened java hpolicy language text
  rw [EditPolicy.withoutReturns_of_not_mem hreturn] at hloaded
  exact ⟨hloaded.toCoherent, ⟨hloaded.text_eq, hloaded.language_eq, hloaded.options_eq⟩,
    hloaded.styleAt?_eq⟩

/-! ## Styles that are left over -/

/-- A session between two operations in which the first character of `back` has a style. -/
structure Kept (java : ExternalParser) (front back : List Char) (s : Session MemoryDocument) :
    Prop extends Coherent java s where
  text_eq : s.buffer.text = front ++ back
  back_ne_nil : back ≠ []
  styled : (s.document.styleAt? front.length).isSome = true

theorem Kept.lt_length (h : Kept java front back s) : front.length < s.buffer.length := by
  have := List.length_pos_iff.mpr h.back_ne_nil
  rw [h.length_eq, h.text_eq, List.length_append]
  omega

/-- An edit in front of the character. -/
theorem Kept.committed (h : Kept java front back s) {e : Edit} {front' : List Char}
    (he : e.Makes s.buffer.text (front' ++ back)) (hne : e.text ≠ []) (hreturn : '\r' ∉ e.text)
    (hstyle : (s.document.edited e).styleAt? front'.length = s.document.styleAt? front.length)
    {caret : Nat} (hcaret : caret ≤ (front' ++ back).length) :
    Kept java front' back (s.committed java e caret (s.history.record e)) where
  toCoherent := (h.toCoherent.evolves_committed he hne hreturn hcaret).1
  text_eq := text_committed he _ _
  back_ne_nil := h.back_ne_nil
  styled := by
    have hpos := List.length_pos_iff.mpr h.back_ne_nil
    have hlength : (s.buffer.edited e).length = (front' ++ back).length :=
      Buffer.length_edited he h.length_eq
    have hlt : front'.length < (s.buffer.edited e).length := by
      rw [hlength, List.length_append]
      omega
    have hmiddle := h.toAligned.committed_middle he hcaret (s.history.record e)
    rw [Session.committed, hmiddle.styleAt?_refreshed hlt, Option.isSome_or]
    refine Bool.or_eq_true_iff.mpr (Or.inr ?_)
    exact (congrArg Option.isSome hstyle).trans h.styled

theorem Kept.insert (h : Kept java front back s) {text : List Char} (hlength : 2 ≤ text.length)
    (hreturn : '\r' ∉ text) :
    Kept java (text ++ front) back ((perform java (.insert 0 text)).final s) := by
  have hplan := s.policy.planInsert_of_two_le s.buffer 0 hlength hreturn
  have hne : text ≠ [] := by
    rintro rfl
    simp at hlength
  have he : Edit.Makes ⟨.insert, 0, text⟩ s.buffer.text (text ++ front ++ back) := by
    rw [h.text_eq, List.append_assoc]
    exact .insert [] text (front ++ back)
  obtain ⟨caret, hcaret, heq⟩ := insert_of_makes java h.toAligned hplan hne he
  rw [perform, Update.final_map, Update.final_of_ok heq]
  refine h.committed he hne hreturn ?_ hcaret
  rw [List.length_append]
  exact MemoryDocument.styleAt?_inserted text (Nat.zero_le _) (Nat.zero_le _)

theorem Kept.remove {gone : List Char} (h : Kept java (front ++ gone) back s)
    (hlength : 2 ≤ gone.length) :
    Kept java front back ((perform java (.remove front.length gone.length)).final s) := by
  have hplan := s.policy.planRemove_of_ne_one s.buffer front.length
    (show gone.length ≠ 1 by omega)
  have hne : gone ≠ [] := by
    rintro rfl
    simp at hlength
  have hstop : front.length + gone.length ≤ s.buffer.length := by
    have := h.lt_length
    rw [List.length_append] at this
    omega
  have htaken : (s.buffer.text.drop front.length).take gone.length = gone := by
    simp [h.text_eq]
  have he : Edit.Makes ⟨.remove, front.length, gone⟩ s.buffer.text (front ++ back) := by
    rw [h.text_eq]
    exact .remove front gone back
  have heq := remove_of_le java h.toAligned hplan (by simpa using hne) hstop
    (congrArg (Edit.mk .remove front.length) htaken.symm)
  rw [perform, Update.final_map, Update.final_of_ok heq]
  refine h.committed he hne ?_ ?_ (he.caretAfter_le (h.length_eq ▸ h.caret_le))
  · exact fun hc => h.no_return (by simp [h.text_eq, hc])
  · rw [List.length_append, Nat.add_comm]
    refine MemoryDocument.styleAt?_removed gone.length (Nat.le_refl _) ?_
    rw [h.styles_length, h.text_eq]
    simp only [List.length_append]
    omega

theorem Kept.setLanguage (h : Kept java front back s) (language : Option Language) :
    Kept java front back ((perform java (.setLanguage language)).final s) ∧
      ((perform java (.setLanguage language)).final s).language = language := by
  have hselected : Aligned (s.withLanguage language) := h.toAligned.of_eq rfl rfl rfl rfl
  have hcoherent := (h.toCoherent.evolves_setLanguage language).1
  rw [Update.final_of_ok (setLanguage_eq s language)] at hcoherent
  rw [perform, Update.final_map, Update.final_of_ok (setLanguage_eq s language)]
  refine ⟨⟨hcoherent, h.text_eq, h.back_ne_nil, ?_⟩, rfl⟩
  rw [hselected.styleAt?_repainted h.lt_length, Option.isSome_or]
  exact Bool.or_eq_true_iff.mpr (Or.inr h.styled)

theorem Kept.reload (h : Kept java front back s) {options : Options} {policy : EditPolicy}
    (hpolicy : options.policy = .ok policy) :
    Kept java front back ((perform java (.reload options)).final s) ∧
      Shows ((perform java (.reload options)).final s) (front ++ back) s.language options := by
  have hnew : Aligned { s with policy, options, history := s.history.setLimit options.undoLimit } :=
    h.toAligned.of_eq rfl rfl rfl rfl
  have hcoherent : Coherent java (refreshed java _ 0 s.buffer.length) :=
    hnew.coherent_refreshed_all h.no_return hpolicy rfl
  rw [perform, Update.final_map, Update.final_of_ok (reload_eq h.toAligned hpolicy)]
  refine ⟨⟨hcoherent, h.text_eq, h.back_ne_nil, ?_⟩, h.text_eq, rfl, rfl⟩
  rw [hnew.styleAt?_refreshed h.lt_length, Option.isSome_or]
  exact Bool.or_eq_true_iff.mpr (Or.inr h.styled)

/-- Every character can have a style left over: it is loaded in a comment, and then the opening of
the comment is replaced by the text before the character. -/
theorem exists_reached_styled (java : ExternalParser) {options : Options} {policy : EditPolicy}
    (hpolicy : options.policy = .ok policy) (language : Option Language) {c : Char}
    (hreturn : '\r' ∉ front ++ c :: back) :
    ∃ s, Reached java s ∧ Shows s (front ++ c :: back) language options ∧
      (s.document.styleAt? front.length).isSome = true := by
  have hopening : '\r' ∉ ['/', '*'] ++ c :: back := by
    simp only [List.mem_append, not_or] at hreturn ⊢
    exact ⟨by decide, hreturn.2⟩
  have hpadded : '\r' ∉ front ++ ['x', 'x'] := by
    simp only [List.mem_append, not_or] at hreturn ⊢
    exact ⟨hreturn.1, by decide⟩
  obtain ⟨hcoherent, hshows, hstyles⟩ :=
    opened_eq java (show ({} : Options).policy = .ok {} from rfl) (some .kotlin) hopening
  have hcomment : Kept java ['/', '*'] (c :: back) (opened java {} {} (some .kotlin) _) :=
    { hcoherent with
      text_eq := hshows.text_eq
      back_ne_nil := List.cons_ne_nil c back
      styled := by
        rw [hstyles _ (by simp)]
        exact isSome_expectedStyle?_blockComment java c back }
  have hinserted := hcomment.insert (by simp) hpadded
  rw [List.append_assoc] at hinserted
  have hremoved := hinserted.remove (by simp)
  obtain ⟨hselected, hlanguage⟩ := hremoved.setLanguage language
  obtain ⟨hreloaded, hshown⟩ := hselected.reload hpolicy
  rw [hlanguage] at hshown
  refine ⟨_, ⟨{}, fresh {} {}, [.setLanguage (some .kotlin), .load (['/', '*'] ++ c :: back),
    .insert 0 (front ++ ['x', 'x']), .remove front.length 4, .setLanguage language,
    .reload options], rfl, rfl⟩, hshown, hreloaded.styled⟩

/-! ## The styles that the content decides -/

/-- **Content decides about the characters that are to have a style, and about no others.** A new
session has exactly the styles that its content gives. Every session with that content agrees with
it on a character if and only if the content gives the character a style. -/
theorem style_eq_opened_iff (java : ExternalParser) {options : Options} {policy : EditPolicy}
    (hpolicy : options.policy = .ok policy) (language : Option Language) {text : List Char}
    (hreturn : '\r' ∉ text) {i : Nat} (hi : i < text.length) :
    (opened java options policy language text).document.styleAt? i =
      SourceEditor.expectedStyle? java options language text i ∧
    ((∀ s, Reached java s → Shows s text language options → s.document.styleAt? i =
        (opened java options policy language text).document.styleAt? i) ↔
      (SourceEditor.expectedStyle? java options language text i).isSome = true) := by
  obtain ⟨-, -, hstyles⟩ := opened_eq java hpolicy language hreturn
  refine ⟨hstyles i hi, fun hall => ?_, fun hsome s hreached hshows => ?_⟩
  · obtain ⟨c, hc⟩ : ∃ c, text.drop i = c :: text.drop (i + 1) :=
      ⟨_, List.drop_eq_getElem_cons hi⟩
    have htext : text.take i ++ c :: text.drop (i + 1) = text := by
      rw [← hc, List.take_append_drop]
    obtain ⟨s, hreached, hshows, hstyled⟩ :=
      exists_reached_styled java hpolicy language (htext.symm ▸ hreturn)
    rw [htext] at hshows
    rw [List.length_take_of_le (Nat.le_of_lt hi), hall s hreached hshows, hstyles i hi] at hstyled
    exact hstyled
  · obtain ⟨style, hstyle⟩ := Option.isSome_iff_exists.mp hsome
    have hcoherent := hreached.coherent
    have hexpected : s.expectedStyle? java i = some style := by
      rw [Session.expectedStyle?, hshows.options_eq, hshows.language_eq, hshows.text_eq, hstyle]
    rw [hstyles i hi, hstyle]
    refine hcoherent.painted i ?_ style hexpected
    rwa [hcoherent.length_eq, hshows.text_eq]

/-- In ` x` the name is decided and the space is not. -/
theorem style_eq_opened_iff_space :
    (¬ ∀ s, Reached noJavaParts s → Shows s [' ', 'x'] (some .kotlin) {} →
      s.document.styleAt? 0 =
        (opened noJavaParts {} {} (some .kotlin) [' ', 'x']).document.styleAt? 0) ∧
    ∀ s, Reached noJavaParts s → Shows s [' ', 'x'] (some .kotlin) {} →
      s.document.styleAt? 1 =
        (opened noJavaParts {} {} (some .kotlin) [' ', 'x']).document.styleAt? 1 := by
  have hpolicy : ({} : Options).policy = .ok {} := rfl
  have hreturn : '\r' ∉ [' ', 'x'] := by decide
  obtain ⟨-, hspace⟩ :=
    style_eq_opened_iff noJavaParts hpolicy (some .kotlin) hreturn (i := 0) (by decide)
  obtain ⟨-, hname⟩ :=
    style_eq_opened_iff noJavaParts hpolicy (some .kotlin) hreturn (i := 1) (by decide)
  rw [hspace, hname]
  decide +kernel

/-- When the mark of a comment is taken away, the space after it keeps the style of the comment. A
new session gives that space no style. -/
theorem styles_ne_opened_of_uncommented :
    let s := run noJavaParts
      [.setLanguage (some .kotlin), .load ['/', '/', ' ', 'x'], .remove 0 2] (fresh {} {})
    start ({} : MemoryDocument) {} = .ok (fresh {} {}) ∧
      Shows s [' ', 'x'] (some .kotlin) {} ∧
      s.document.styles ≠
        (opened noJavaParts {} {} (some .kotlin) [' ', 'x']).document.styles :=
  ⟨rfl, ⟨by decide +kernel, by decide +kernel, by decide +kernel⟩, by decide +kernel⟩

end Session

end SourceEditor

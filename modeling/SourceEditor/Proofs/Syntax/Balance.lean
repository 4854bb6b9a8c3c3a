import SourceEditor.Proofs.Syntax.TokenTree

/-!
# Balanced brackets and errors

A word of brackets is `Balanced` if every opening bracket has its closing bracket of the same kind,
and what stands between the two is balanced again. A reader that keeps the open groups on a stack
recognizes these words (`balanced_iff_readAll`).

The parser never gives up on an unbalanced text, it marks errors and goes on. As long as there is no
error, its open groups are the stack of the reader (`State.add_of_advance`), and so a token tree is
without errors exactly if its text is balanced and without bad characters.
-/

namespace SourceEditor

/-! ## Brackets -/

/-- An opening or a closing bracket. -/
inductive Bracket where
  | opening (g : Group)
  | closing (g : Group)
  deriving DecidableEq, Repr

/-- The bracket that a token is, if it is one. -/
def Token.bracket? (t : Token) : Option Bracket :=
  match t.kind with
  | .leftParen => some (.opening .parentheses)
  | .rightParen => some (.closing .parentheses)
  | .leftBrace => some (.opening .braces)
  | .rightBrace => some (.closing .braces)
  | .leftBracket => some (.opening .brackets)
  | .rightBracket => some (.closing .brackets)
  | .templateEntry =>
    if t.text = ['$', '{'] then some (.opening .template)
    else if t.text = ['}'] then some (.closing .template)
    else none
  | _ => none

theorem Token.bracket?_eq (t : Token) :
    t.bracket? = ((Group.openedBy? t).map Bracket.opening).or
      ((Group.closedBy? t).map Bracket.closing) := by
  unfold Token.bracket? Group.openedBy? Group.closedBy?
  split <;> simp_all
  split <;> simp_all

theorem Token.kind_beq_badCharacter {t : Token} {b : Bracket} (h : t.bracket? = some b) :
    (t.kind == .badCharacter) = false := by
  rw [beq_eq_false_iff_ne]
  intro hkind
  simp [Token.bracket?, hkind] at h

/-- Words in which every bracket has its partner. -/
inductive Balanced : List Bracket → Prop
  | nil : Balanced []
  | wrap (g : Group) {inner rest : List Bracket} (hinner : Balanced inner) (hrest : Balanced rest) :
      Balanced (.opening g :: inner ++ .closing g :: rest)

namespace Bracket

/-- The open groups after a bracket, innermost first, unless the bracket does not close the
innermost group. -/
def step : Bracket → List Group → Option (List Group)
  | .opening g, gs => some (g :: gs)
  | .closing _, [] => none
  | .closing g, g' :: gs => if g' = g then some gs else none

theorem step_closing_eq_some {g : Group} {gs gs' : List Group} :
    (closing g).step gs = some gs' ↔ gs = g :: gs' := by
  cases gs with
  | nil => simp [step]
  | cons g' gs => simp [step]

/-- The open groups after a word. -/
def readAll : List Bracket → List Group → Option (List Group)
  | [], gs => some gs
  | b :: bs, gs => (b.step gs).bind (readAll bs)

end Bracket

theorem Balanced.readAll_append {word : List Bracket} (h : Balanced word) (rest : List Bracket)
    (gs : List Group) : Bracket.readAll (word ++ rest) gs = Bracket.readAll rest gs := by
  induction h generalizing rest gs with
  | nil => rfl
  | wrap g _ _ ihInner ihRest =>
    simp only [List.append_assoc, List.cons_append, Bracket.readAll, Bracket.step, Option.bind_some,
      ihInner, if_true, ihRest]

/-- A word that closes some open groups, with balanced words between their closing brackets. -/
inductive Closes : List Group → List Bracket → Prop
  | nil {word : List Bracket} (balanced : Balanced word) : Closes [] word
  | cons {g : Group} {gs : List Group} {word rest : List Bracket} (balanced : Balanced word)
      (tail : Closes gs rest) : Closes (g :: gs) (word ++ .closing g :: rest)

theorem Closes.wrap {gs : List Group} {rest : List Bracket} (h : Closes gs rest) (g : Group)
    {inner : List Bracket} (hinner : Balanced inner) :
    Closes gs (.opening g :: inner ++ .closing g :: rest) := by
  cases h with
  | nil balanced => exact .nil (.wrap g hinner balanced)
  | @cons g' gs word rest balanced tail =>
    have hword : .opening g :: inner ++ .closing g :: (word ++ .closing g' :: rest) =
        (.opening g :: inner ++ .closing g :: word) ++ .closing g' :: rest := by simp
    rw [hword]
    exact .cons (.wrap g hinner balanced) tail

theorem closes_of_readAll {word : List Bracket} {gs : List Group}
    (h : Bracket.readAll word gs = some []) : Closes gs word := by
  induction word generalizing gs with
  | nil =>
    obtain rfl : gs = [] := Option.some.inj h
    exact .nil .nil
  | cons b word ih =>
    obtain ⟨gs', hstep, hrest⟩ := Option.bind_eq_some_iff.mp h
    cases b with
    | opening g =>
      obtain rfl : g :: gs = gs' := Option.some.inj hstep
      cases ih hrest with
      | cons balanced tail => exact tail.wrap g balanced
    | closing g =>
      obtain rfl := Bracket.step_closing_eq_some.mp hstep
      exact .cons .nil (ih hrest)

/-- The reader recognizes the balanced words. -/
theorem balanced_iff_readAll (word : List Bracket) :
    Balanced word ↔ Bracket.readAll word [] = some [] := by
  constructor
  · intro h
    have := h.readAll_append [] []
    rwa [List.append_nil] at this
  · intro h
    cases closes_of_readAll h with
    | nil balanced => exact balanced

/-! ## Errors in a tree in the making -/

/-- Whether any node of a tree is an error. -/
def Tree.hasErrors (t : Tree NodeInfo) : Bool := t.labels.any NodeInfo.error

/-- Whether an open node or anything below it is an error. -/
def Frame.hasErrors (f : Frame) : Bool := f.info.error || f.children.any Tree.hasErrors

@[simp]
theorem Frame.hasErrors_push (f : Frame) (t : Tree NodeInfo) :
    (f.push t).hasErrors = (t.hasErrors || f.hasErrors) := by
  simp [Frame.hasErrors, Frame.push, Bool.or_left_comm]

@[simp]
theorem Frame.hasErrors_close (f : Frame) (stop stopByte : Nat) :
    (f.close stop stopByte).hasErrors = f.hasErrors := by
  rw [Tree.hasErrors, Frame.close, Tree.labels_node, List.any_cons, List.any_flatMap,
    List.any_reverse]
  rfl

namespace Builder

variable (b : Builder)

/-- Whether any node so far is an error. -/
def hasErrors : Bool := b.inner.hasErrors || b.outer.any Frame.hasErrors

@[simp]
theorem hasErrors_leaf (shape : NodeShape) (range bytes : Span) :
    (b.leaf shape range bytes).hasErrors = (shape.error || b.hasErrors) := by
  simp [hasErrors, leaf, Tree.hasErrors, Tree.labels_node, NodeShape.toInfo, Bool.or_assoc]

@[simp]
theorem hasErrors_enter (shape : NodeShape) (start startByte : Nat) :
    (b.enter shape start startByte).hasErrors = (shape.error || b.hasErrors) := by
  simp [hasErrors, enter, Frame.hasErrors, NodeShape.toInfo]

@[simp]
theorem hasErrors_markError : b.markError.hasErrors = true := by
  simp [hasErrors, markError, Frame.hasErrors]

@[simp]
theorem hasErrors_leave (stop stopByte : Nat) :
    (b.leave stop stopByte).hasErrors = b.hasErrors := by
  unfold leave
  split
  · rfl
  · next frame outer houter => simp [hasErrors, houter, Bool.or_assoc]

theorem hasErrors_closeAll (stop stopByte : Nat) (inner : Frame) (outer : List Frame) :
    (closeAll stop stopByte inner outer).hasErrors =
      (inner.hasErrors || outer.any Frame.hasErrors) := by
  induction outer generalizing inner with
  | nil => simp [closeAll]
  | cons frame outer ih => simp [closeAll, ih, Bool.or_assoc]

@[simp]
theorem hasErrors_finish (stop stopByte : Nat) :
    (b.finish stop stopByte).hasErrors = b.hasErrors :=
  hasErrors_closeAll stop stopByte b.inner b.outer

end Builder

namespace TokenTree

theorem hasErrors_closeInside (g : Group) (stop stopByte : Nat) (gs : List Group) {b : Builder}
    (h : b.hasErrors = true) : (closeInside g stop stopByte gs b).1.hasErrors = true := by
  induction gs generalizing b with
  | nil => exact h
  | cons g' gs ih =>
    rw [closeInside]
    split
    · exact h
    · exact ih (by simp)

/-! ## The parser and the reader -/

/-- The open groups after a token. -/
def advance (gs : List Group) (t : Token) : Option (List Group) :=
  match t.bracket? with
  | none => some gs
  | some b => b.step gs

theorem readAll_filterMap_cons (t : Token) (ts : List Token) (gs : List Group) :
    Bracket.readAll ((t :: ts).filterMap Token.bracket?) gs =
      (advance gs t).bind (Bracket.readAll (ts.filterMap Token.bracket?)) := by
  rw [List.filterMap_cons, advance]
  split <;> simp_all [Bracket.readAll]

namespace State

variable {s : State} {t : Token} {gs : List Group}

/-- A token that the reader takes leaves the parser with the groups of the reader. -/
theorem add_of_advance (h : advance s.groups t = some gs) :
    (s.add t).groups = gs ∧
      (s.add t).builder.hasErrors = (s.builder.hasErrors || t.kind == .badCharacter) := by
  have hbracket := t.bracket?_eq
  cases hopen : Group.openedBy? t with
  | some g =>
    replace hbracket : t.bracket? = some (.opening g) := by rw [hbracket, hopen]; rfl
    simp only [advance, hbracket, Bracket.step, Option.some.injEq] at h
    simp [State.add, hopen, h, Token.kind_beq_badCharacter hbracket]
  | none =>
    cases hclose : Group.closedBy? t with
    | some g =>
      replace hbracket : t.bracket? = some (.closing g) := by rw [hbracket, hopen, hclose]; rfl
      simp only [advance, hbracket, Bracket.step_closing_eq_some] at h
      simp [State.add, hopen, hclose, h, closeInside, Token.kind_beq_badCharacter hbracket]
    | none =>
      replace hbracket : t.bracket? = none := by rw [hbracket, hopen, hclose]; rfl
      simp only [advance, hbracket, Option.some.injEq] at h
      simp [State.add, hopen, hclose, h, Bool.or_comm]

/-- A token that the reader does not take is an error. -/
theorem add_of_advance_eq_none (h : advance s.groups t = none) :
    (s.add t).builder.hasErrors = true := by
  have hbracket := t.bracket?_eq
  cases hopen : Group.openedBy? t with
  | some g => simp [advance, hbracket, hopen, Bracket.step] at h
  | none =>
    cases hclose : Group.closedBy? t with
    | none => simp [advance, hbracket, hopen, hclose] at h
    | some g =>
      simp only [advance, hbracket, hopen, hclose, Option.map_none, Option.map_some,
        Option.none_or] at h
      -- The bracket closes no group at all, or one that others stand in the way of.
      cases hgroups : s.groups with
      | nil => simp [State.add, hopen, hclose, hgroups]
      | cons g' gs =>
        have hne : g' ≠ g := by
          rintro rfl
          simp [hgroups, Bracket.step] at h
        by_cases hmem : g ∈ g' :: gs
        · simp [State.add, hopen, hclose, hgroups, hmem, closeInside, hne, hasErrors_closeInside]
        · simp [State.add, hopen, hclose, hgroups, hmem]

/-- Groups that are still open at the end are errors. -/
theorem hasErrors_finish (s : State) :
    s.finish.hasErrors = (s.builder.hasErrors || !s.groups.isEmpty) := by
  have hfold (b : Builder) (gs : List Group) :
      (gs.foldl (fun b _ => b.markError.leave s.stop s.stopByte) b).hasErrors =
        (b.hasErrors || !gs.isEmpty) := by
    induction gs generalizing b with
    | nil => simp
    | cons g gs ih => simp [ih]
  exact (Builder.hasErrors_finish _ s.stop s.stopByte).trans (hfold s.builder s.groups)

/-- A run over tokens ends without errors if the reader takes them all and ends with no open
group. -/
theorem hasErrors_foldl_add (ts : List Token) (s : State) :
    (ts.foldl State.add s).finish.hasErrors = false ↔
      s.builder.hasErrors = false ∧ (∀ t ∈ ts, t.kind ≠ .badCharacter) ∧
        Bracket.readAll (ts.filterMap Token.bracket?) s.groups = some [] := by
  induction ts generalizing s with
  | nil => simp [Bracket.readAll, hasErrors_finish]
  | cons t ts ih =>
    rw [List.foldl_cons, ih, readAll_filterMap_cons]
    cases h : advance s.groups t with
    | none => simp [add_of_advance_eq_none h]
    | some gs =>
      obtain ⟨hgroups, herrors⟩ := add_of_advance h
      simp [hgroups, herrors, and_assoc]

end State

/-! ## Groups -/

theorem kind_ne_groupKind (k : TokenKind) (g : Group) : k.name ≠ g.kind := by
  cases g <;> cases k <;> decide

theorem groupKind_inj {g g' : Group} (h : g.kind = g'.kind) : g = g' := by
  cases g <;> cases g' <;> first | rfl | simp [Group.kind] at h

theorem openedBy?_eq_some_iff {t : Token} {g : Group} :
    Group.openedBy? t = some g ↔ t.bracket? = some (.opening g) := by
  rw [t.bracket?_eq]
  cases Group.openedBy? t <;> cases Group.closedBy? t <;> simp

theorem closedBy?_eq_some_iff {t : Token} {g : Group} :
    Group.closedBy? t = some g ↔ t.bracket? = some (.closing g) := by
  rw [t.bracket?_eq]
  cases hopen : Group.openedBy? t with
  | none => cases Group.closedBy? t <;> simp
  | some g' => simp [closedBy?_of_openedBy? hopen]

/-- A group starts with its opening bracket, and is free of the error mark exactly if it ends with
its closing bracket. -/
structure Delimited (source : List Char) (ts : List Token) (g : Group) (node : Tree NodeInfo) :
    Prop where
  opener : ∃ first ∈ node.children.head?, ∃ t ∈ ts,
    first.IsLeafOf source t ∧ t.bracket? = some (.opening g)
  error_eq_false_iff : node.label.error = false ↔ ∃ last ∈ node.children.getLast?, ∃ t ∈ ts,
    last.IsLeafOf source t ∧ t.bracket? = some (.closing g)

theorem IsGroup.delimited {source : List Char} {ts : List Token} {g : Group} {node : Tree NodeInfo}
    (htiles : Tiles 0 source ts) (h : IsGroup source g ts node.label node.children) :
    Delimited source ts g node where
  opener := by simpa only [openedBy?_eq_some_iff] using h.opener
  error_eq_false_iff := by
    simp only [← closedBy?_eq_some_iff]
    refine ⟨h.closed, fun ⟨last, hlast, t, ht, hleaf, hcloses⟩ => ?_⟩
    by_contra herror
    obtain ⟨last', hlast', hopen⟩ := h.unclosed (Bool.not_eq_false _ ▸ herror)
    obtain rfl := Option.mem_unique hlast hlast'
    rcases hopen with hnode | ⟨u, hu, hleaf', hne⟩
    · exact hnode hleaf.1
    -- The tokens of one leaf start at one offset.
    · have hstart : t.start = u.start :=
        congrArg Span.start (hleaf.2.range_eq.symm.trans hleaf'.2.range_eq)
      exact hne (htiles.eq_of_start_eq ht hu hstart ▸ hcloses)

theorem IsRoot.delimited {source : List Char} {ts : List Token} {root : Tree NodeInfo}
    (htiles : Tiles 0 source ts) (h : IsRoot source ts root) {node : Tree NodeInfo}
    (hnode : node ∈ root.subtrees) {g : Group} (hkind : node.label.kind = g.kind) :
    Delimited source ts g node := by
  obtain ⟨n, children⟩ := root
  rw [Tree.subtrees_node, List.mem_cons] at hnode
  rcases hnode with rfl | hnode
  · exact absurd (h.kind_eq.symm.trans hkind) (by cases g <;> decide)
  · rcases h.grouped.isLeafOf_or_isGroup node hnode with ⟨t, -, hleaf⟩ | ⟨g', hgroup⟩
    · exact absurd (hleaf.2.kind_eq.symm.trans hkind) (kind_ne_groupKind t.kind g)
    · obtain rfl := groupKind_inj (hgroup.kind_eq.symm.trans hkind)
      exact hgroup.delimited htiles

/-- **Errors are bad characters and unbalanced brackets.** A token tree is without errors exactly if
no token is a bad character and the brackets are balanced. The node of a group is where the error of
an opening bracket without its closing bracket shows. -/
theorem parse_hasErrors_eq_false_iff (source : List Char) :
    ((parse source).hasErrors = false ↔
      (∀ t ∈ tokens Rules.kotlin source, t.kind ≠ .badCharacter) ∧
        Balanced ((tokens Rules.kotlin source).filterMap Token.bracket?)) ∧
    ∀ node ∈ (parse source).root.subtrees, ∀ g : Group, node.label.kind = g.kind →
      Delimited source (tokens Rules.kotlin source) g node := by
  constructor
  · rw [parse, ofTokens, State.hasErrors_foldl_add, balanced_iff_readAll]
    exact and_iff_right rfl
  · intro node hnode g hkind
    exact (isRoot_parse source).delimited (tiles_tokens Rules.productive_kotlin source) hnode hkind

/-- In `{(}` the braces are closed and the parenthesis is an error. -/
theorem parse_hasErrors_brace_closes_parenthesis :
    (parse ['{', '(', '}']).hasErrors = true ∧
    ¬ Balanced [.opening .braces, .opening .parentheses, .closing .braces] ∧
    ∃ node ∈ (parse ['{', '(', '}']).root.subtrees, node.label.error = true ∧
      Delimited ['{', '(', '}'] (tokens Rules.kotlin ['{', '(', '}']) .parentheses node := by
  obtain ⟨hiff, hgroups⟩ := parse_hasErrors_eq_false_iff ['{', '(', '}']
  have hword : (tokens Rules.kotlin ['{', '(', '}']).filterMap Token.bracket? =
      [.opening .braces, .opening .parentheses, .closing .braces] := by decide +kernel
  have herrors : (parse ['{', '(', '}']).hasErrors = true := by decide +kernel
  have hchars : ∀ t ∈ tokens Rules.kotlin ['{', '(', '}'], t.kind ≠ .badCharacter := by
    decide +kernel
  refine ⟨herrors, fun hbalanced => ?_, ?_⟩
  · have := hiff.mpr ⟨hchars, hword ▸ hbalanced⟩
    simp [herrors] at this
  · obtain ⟨node, hnode, herror, hkind⟩ : ∃ node ∈ (parse ['{', '(', '}']).root.subtrees,
        node.label.error = true ∧ node.label.kind = Group.parentheses.kind := by decide +kernel
    exact ⟨node, hnode, herror, hgroups node hnode .parentheses hkind⟩

end TokenTree

end SourceEditor

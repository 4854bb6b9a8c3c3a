import SourceEditor.Proofs.Session.Steps
import SourceEditor.Proofs.Session.Surfaces
import SourceEditor.Proofs.Syntax.TokenTree

/-!
# The syntax tree of a session

A session keeps the syntax tree of its text, and the parser that it used last. Either could be out
of date: the tree could be that of another text or be made in another language, and the parser could
be one for another language. The parser is looked at each time before it is used (`parserFor_eq`).
For the tree there is an invariant: what the session gives when it is asked for a tree is what a new
parser for its language makes of its text (`UpToDate`). Every step keeps it, because whatever
changes the text or the language also highlights, which renews the tree.

So the tree that a session gives is never out of date (`syntaxTree_current`), and asking for it
changes nothing but what the session keeps for the next time.
-/

namespace SourceEditor

/-! ## The source of a tree -/

namespace RawTree

variable (index : ByteIndex)

theorem source_addGap (start stop : Nat) (b : Builder) :
    (addGap index start stop b).source = b.source := by
  unfold addGap
  split <;> rfl

mutual

theorem source_addNode (raw : RawTree) (b : Builder) : (addNode index raw b).source = b.source := by
  match raw with
  | .node n [] => rfl
  | .node n (t :: ts) =>
    rw [addNode, TokenTree.source_leave, source_addChildren]
    rfl

theorem source_addChildren (done stop : Nat) (raws : List RawTree) (b : Builder) :
    (addChildren index done stop raws b).source = b.source := by
  match raws with
  | [] => exact source_addGap index done stop b
  | t :: ts => rw [addChildren, source_addChildren, source_addNode, source_addGap]

end

end RawTree

/-- A tree has the source that it was made of, even if an external parser was wrong about it. -/
theorem Language.source_parse (java : ExternalParser) (language : Language) (source : List Char) :
    (language.parse java source).source = source := by
  cases language with
  | java => exact RawTree.source_addChildren _ _ _ _ _
  | kotlin => exact TokenTree.source_parse source

namespace Session

/-! ## The tree that is kept -/

section UpToDate

variable {D : Type} {java : ExternalParser}

/-- The tree of a session is the one that a new parser for its language makes of its text. -/
def UpToDate (java : ExternalParser) (s : Session D) : Prop :=
  s.parsedTree java = s.language.map fun language => language.parse java s.buffer.text

theorem UpToDate.parsed {s : Session D} (h : UpToDate java s) : UpToDate java (s.parsed java) := by
  have htree : (s.parsed java).parsedTree java =
      (s.parsedTree java).or (s.language.map fun l => l.parse java s.buffer.text) := rfl
  rw [UpToDate, htree, h]
  exact Option.or_self

theorem upToDate_of_renewed {s : Session MemoryDocument} (h : Renewed java s) :
    UpToDate java s := by
  rw [UpToDate, parsedTree, h]
  generalize s.language = language
  cases language with
  | none => rfl
  | some l =>
    rw [highlightTree]
    split <;> rfl

theorem UpToDate.of_eq {s t : Session MemoryDocument} (h : UpToDate java s)
    (htext : t.buffer.text = s.buffer.text) (hlanguage : t.language = s.language)
    (htree : t.tree = s.tree) : UpToDate java t := by
  rw [UpToDate, parsedTree, htext, hlanguage, htree]
  exact h

end UpToDate

variable {java : ExternalParser} {timeline : Timeline} {s t : Session MemoryDocument}

/-- A tree that is taken from one text or language to another would break this. -/
theorem Step.upToDate {operation : Operation} (hstep : Step java s operation t)
    (h : UpToDate java s) : UpToDate java t := by
  cases hstep with
  | still _ _ hstill => exact h.of_eq hstill.text_eq hstill.language_eq hstill.tree_eq
  | change _ hchanged => exact upToDate_of_renewed hchanged.renewed
  | load text hloaded =>
    apply upToDate_of_renewed
    rw [Renewed, hloaded.tree_eq, hloaded.options_eq, hloaded.language_eq, hloaded.text_eq]
  | highlight _ _ _ _ hrenewed => exact upToDate_of_renewed hrenewed
  | parse => exact h.parsed
  | save => exact h.of_eq rfl rfl rfl

theorem Sound.upToDate_run (hsound : Sound java timeline s) (h : UpToDate java s)
    (operations : List Operation) : UpToDate java (Session.run java operations s) := by
  induction operations generalizing s timeline with
  | nil => exact h
  | cons operation operations ih =>
    exact ih (hsound.perform operation) ((hsound.step operation).upToDate h)

/-! ## The tree that is given -/

/-- A session gives the tree that a new parser for its language makes of its text, and none if it
has no language. Only the tree and the parser that it keeps may be others afterwards. -/
def GivesNewTree {D : Type} [Surface D] (java : ExternalParser) (s : Session D) : Prop :=
  ∃ tree parser, syntaxTree java s = .ok tree { s with tree, parser } ∧
    (tree.isSome = true ↔ s.language.isSome = true) ∧
    ∀ language, s.language = some language →
      tree = some (language.parse java s.buffer.text) ∧
      (language.parse java s.buffer.text).source = s.buffer.text

theorem UpToDate.givesNewTree {D : Type} [Surface D] {s : Session D} (h : UpToDate java s) :
    GivesNewTree java s := by
  refine ⟨s.parsedTree java, _, syntaxTree_eq s, ?_, ?_⟩
  · rw [h, Option.isSome_map]
  · intro language hlanguage
    refine ⟨?_, Language.source_parse java language _⟩
    rw [h, hlanguage]
    rfl

theorem upToDate_run_of_start {options : Options}
    (h : start ({} : MemoryDocument) options = .ok s) (operations : List Operation) :
    UpToDate java (run java operations s) := by
  have hsound : Sound java {} s := sound_of_start h
  obtain ⟨policy, -, rfl⟩ := exists_fresh_of_start h
  exact hsound.upToDate_run rfl operations

/-- **The syntax tree is never out of date**, whatever operations have led to a session, over a
document in memory or on a terminal, and whether they completed or failed. -/
theorem syntaxTree_current (java : ExternalParser) (options : Options)
    (operations : List Operation) :
    (∀ s, start ({} : MemoryDocument) options = .ok s →
        GivesNewTree java (run java operations s)) ∧
      ∀ t, start ({} : TerminalDocument) options = .ok t →
        GivesNewTree java (run java operations t) := by
  constructor
  · intro s hs
    exact (upToDate_run_of_start hs operations).givesNewTree
  · intro t ht
    obtain ⟨s, hs, hrun⟩ := exists_start_of_terminal java ht
    have hshown : UpToDate java (run java operations s).shown :=
      upToDate_run_of_start hs operations
    rw [hrun]
    exact hshown.givesNewTree

/-- Without highlighting of names the tree is only made when it is asked for. Here the text that it
was made of is taken back after a removal that fails, and another language is selected. -/
theorem syntaxTree_current_after_undo :
    let options : Options := { semanticHighlighting := false }
    let asked : List Operation := [.setLanguage (some .kotlin), .insert 0 ['x'], .syntaxTree]
    let operations := asked ++ [.remove 5 1, .undo, .setLanguage (some .java)]
    let s := fresh options {}
    start ({} : MemoryDocument) options = .ok s ∧
      start ({} : TerminalDocument) options = .ok s.shown ∧
      (run noJavaParts asked s).tree.isSome = true ∧
      (run noJavaParts asked s).parser = some .kotlin ∧
      GivesNewTree noJavaParts (run noJavaParts operations s) ∧
      GivesNewTree noJavaParts (run noJavaParts operations s.shown) := by
  intro options asked operations s
  have hcurrent := syntaxTree_current noJavaParts options operations
  exact ⟨rfl, rfl, by decide +kernel, by decide +kernel, hcurrent.1 s rfl, hcurrent.2 s.shown rfl⟩

end Session

end SourceEditor

import SourceEditor.Text.Buffer
import SourceEditor.Text.Delimiters

/-!
# What an edit request does

Typing and deleting delimiters works on pairs. A policy looks at one request against a buffer and
plans the edit that is made:

* an opening delimiter brings its closing one, with the caret between them;
* either delimiter typed between that very pair inserts nothing and steps over the closing one;
* deleting an opening delimiter whose partner follows deletes both.

Carriage returns are dropped, a typed tab may be expanded to spaces, and text of several characters
is inserted as it is.
-/

namespace SourceEditor

/-- How requests are turned into edits. -/
structure EditPolicy where
  delimiters : Delimiters := .standard
  /-- How many spaces a typed tab becomes, if it is expanded. -/
  tab : Option Nat := none
  deriving DecidableEq, Repr

/-- An insertion to be made. -/
structure InsertPlan where
  offset : Nat
  text : List Char
  /-- How the caret moves after the insertion has shifted it. -/
  caretMove : Int
  deriving DecidableEq, Repr

/-- A removal to be made. -/
structure RemovePlan where
  offset : Nat
  count : Nat
  deriving DecidableEq, Repr

/-- Whether a plan only steps over a delimiter. -/
def InsertPlan.isStep (p : InsertPlan) : Bool := p.text.isEmpty && p.caretMove == 1

namespace EditPolicy

/-- The policy that expands a tab to `size` spaces, if so many can be written. -/
def expandingTabs (policy : EditPolicy) (size : Nat) : Except Fault EditPolicy :=
  if size ≤ maxAllocation then .ok { policy with tab := some size } else .error .tooLong

/-- A text without its carriage returns. -/
def withoutReturns (text : List Char) : List Char := text.filter (· != '\r')

/-- The character before an offset. -/
def charBefore? (b : Buffer) : (offset : Nat) → Option Char
  | 0 => none
  | n + 1 => b.charAt? n

/-- Plans the insertion of one character. -/
def planChar (policy : EditPolicy) (b : Buffer) (offset : Nat) (c : Char) : InsertPlan :=
  let before := charBefore? b offset
  let following := b.charAt? offset
  let steps (pair : Char × Char) := before == some pair.1 && following == some pair.2
  if (policy.delimiters.opener? c).any fun opener => steps (opener, c) then ⟨offset, [], 1⟩
  else
    match policy.delimiters.closer? c with
    | some closer => if steps (c, closer) then ⟨offset, [], 1⟩ else ⟨offset, [c, closer], -1⟩
    | none =>
      match policy.tab with
      | some size => ⟨offset, if c == '\t' then List.replicate size ' ' else [c], 0⟩
      | none => ⟨offset, [c], 0⟩

/-- Plans an insertion. -/
def planInsert (policy : EditPolicy) (b : Buffer) (offset : Nat) (text : List Char) : InsertPlan :=
  match withoutReturns text with
  | [c] => policy.planChar b offset c
  | cs => ⟨offset, cs, 0⟩

/-- Whether the opening delimiter at an offset is followed by its partner. -/
def isPairAt (policy : EditPolicy) (b : Buffer) (offset : Nat) : Bool :=
  ((b.charAt? offset).bind policy.delimiters.closer?).any fun closer =>
    b.charAt? (offset + 1) == some closer

/-- Plans a removal. -/
def planRemove (policy : EditPolicy) (b : Buffer) (offset count : Nat) : RemovePlan :=
  if count == 1 && policy.isPairAt b offset then ⟨offset, 2⟩ else ⟨offset, count⟩

end EditPolicy

end SourceEditor

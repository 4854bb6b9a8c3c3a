/-!
# The history of a document

Every change of a document is reported to its history. Content edits are recorded so that they can
be taken back and made again. Changes of attributes follow from the content and are not recorded.

Both stacks are lists with the latest edit first, and neither is longer than a limit: the oldest
edits are forgotten.
-/

namespace SourceEditor

inductive EditKind where
  | insert
  | remove
  deriving DecidableEq, Repr

/-- A change of the text: what was inserted or removed, and where. -/
structure Edit where
  kind : EditKind
  offset : Nat
  text : List Char
  deriving DecidableEq, Repr

namespace Edit

/-- The edit that takes an edit back. -/
def inverse (e : Edit) : Edit :=
  match e.kind with
  | .insert => { e with kind := .remove }
  | .remove => { e with kind := .insert }

@[simp]
theorem inverse_inverse (e : Edit) : e.inverse.inverse = e := by
  cases e with
  | mk kind offset text => cases kind <;> rfl

/-- The end of the range that the edit leaves changed. -/
def touchedStop (e : Edit) : Nat :=
  match e.kind with
  | .insert => e.offset + e.text.length
  | .remove => e.offset

end Edit

/-- What a change of attributes is about. -/
inductive AttributeTarget where
  | character
  | paragraph
  deriving DecidableEq, Repr

/-- A change of how characters look or how lines are set. -/
structure AttributeEdit where
  offset : Nat
  count : Nat
  target : AttributeTarget
  deriving DecidableEq, Repr

/-- What is reported of a document. -/
inductive EditEvent where
  | content (e : Edit)
  | attribute (e : AttributeEdit)
  deriving DecidableEq, Repr

/-- The edits that can be taken back and those that can be made again, latest first. -/
structure History where
  undos : List Edit := []
  redos : List Edit := []
  /-- How many edits each of the two can hold. -/
  limit : Nat
  /-- Whether the text has changed since it was last saved. -/
  edited : Bool := false
  deriving DecidableEq, Repr

namespace History

/-- A stack with one more edit on top. If it holds `limit` edits already, the oldest is forgotten,
and nothing is kept if the limit is zero. -/
def push (limit : Nat) (e : Edit) (stack : List Edit) : List Edit :=
  if limit = 0 then stack else if limit ≤ stack.length then e :: stack.dropLast else e :: stack

/-- Records a new edit, after which nothing can be made again. -/
def record (h : History) (e : Edit) : History :=
  { h with undos := push h.limit e h.undos, redos := [], edited := true }

/-- Changes of attributes leave the history as it is. -/
def attributesChanged (h : History) (_ : AttributeEdit) : History := h

/-- Takes back the latest edit: gives the edit that does so. -/
def takeUndo? (h : History) : Option (Edit × History) :=
  match h.undos with
  | [] => none
  | e :: rest =>
    some (e.inverse, { h with undos := rest, redos := push h.limit e h.redos, edited := true })

/-- Makes the edit again that was taken back last: gives that edit. -/
def takeRedo? (h : History) : Option (Edit × History) :=
  match h.redos with
  | [] => none
  | e :: rest => some (e, { h with undos := push h.limit e h.undos, redos := rest, edited := true })

/-- Changes the limit and forgets the oldest edits beyond it. -/
def setLimit (h : History) (limit : Nat) : History :=
  { h with undos := h.undos.take limit, redos := h.redos.take limit, limit }

def markSaved (h : History) : History := { h with edited := false }

/-- Forgets all edits. -/
def reset (h : History) : History := { h with undos := [], redos := [], edited := false }

def canUndo (h : History) : Bool := !h.undos.isEmpty

def canRedo (h : History) : Bool := !h.redos.isEmpty

end History

/-- What becomes of a history to which an event is reported. -/
def EditEvent.dispatch : EditEvent → History → History
  | .content e, h => h.record e
  | .attribute e, h => h.attributesChanged e

end SourceEditor

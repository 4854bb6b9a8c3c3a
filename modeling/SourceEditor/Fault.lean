/-!
# Failed operations

An operation on an editor value either completes or fails with a `Fault`, and a failure may strike
half-way: what was written before it stays written. `Update σ α` is the type of such operations on
a state `σ`. Its result carries the state in both cases, so that "a failed operation changes
nothing" is a statement about an operation and not a consequence of its type.

* `Fault.message` is the text shown for a fault; arithmetic faults and bad ranges of the terminal
  surface have none.
* `Update.on` runs an update of a part of a state.
* `Update.lastly` runs a closing step whether or not an update failed.
-/

namespace SourceEditor

/-- The largest offset or length that the editor can count with. -/
def maxOffset : Nat := 0xffffffffffffffff

/-- The largest number of bytes that one piece of text may take up. -/
def maxAllocation : Nat := 0x7fffffffffffffff

/-- Why an operation failed. -/
inductive Fault where
  /-- A sum passed `maxOffset`, or a difference fell below zero. -/
  | overflow
  /-- A range that does not lie inside a terminal document. -/
  | badRange
  /-- A text longer than `maxAllocation` was asked for. -/
  | tooLong
  /-- The caret of a buffer was set past its end. -/
  | caretOutOfBounds (caret length : Nat)
  /-- An insertion past the end of a buffer. -/
  | insertOutOfBounds (offset length : Nat)
  /-- A removal that reaches past the end of a buffer. -/
  | removeOutOfBounds (start stop length : Nat)
  /-- A character offset past the end of a text. -/
  | offsetOutOfBounds (offset length : Nat)
  /-- A byte offset that does not lie between characters. -/
  | insideCharacter
  /-- A range that reaches past the end of a document. -/
  | rangeOutOfBounds (start stop length : Nat)
  /-- The caret of a document was set past its end. -/
  | documentCaretOutOfBounds (caret : Nat)
  /-- A write lock was released that nobody holds. -/
  | notLocked
  /-- A session was opened on a document that already holds text. -/
  | documentNotEmpty
  deriving DecidableEq, Repr

/-- The text shown for a fault, if it has one. -/
def Fault.message : Fault → Option String
  | .overflow | .badRange | .tooLong | .insideCharacter => none
  | .caretOutOfBounds caret length => some s!"caret {caret} out of bounds (len {length})"
  | .insertOutOfBounds offset length => some s!"insert offset {offset} out of bounds (len {length})"
  | .removeOutOfBounds start stop length =>
    some s!"remove range {start}..{stop} out of bounds (len {length})"
  | .offsetOutOfBounds offset length => some s!"char offset {offset} out of bounds (len {length})"
  | .rangeOutOfBounds start stop length =>
    some s!"range {start}..{stop} out of bounds (len {length})"
  | .documentCaretOutOfBounds caret => some s!"caret {caret} out of bounds"
  | .notLocked => some "unlock_write without lock_write"
  | .documentNotEmpty => some "a document handler must start from an empty document"

/-- An operation on a state that may fail and keeps what it wrote before failing. -/
abbrev Update (σ α : Type) := EStateM Fault σ α

namespace Update

/-- The end of a range of `count` characters in a text of `length` characters. A sum past
`maxOffset` cannot be counted; the offsets of a text that is there always can. -/
def rangeStop {σ : Type} (offset count length : Nat) : Update σ Nat :=
  if offset + count ≤ max maxOffset length then pure (offset + count) else throw .overflow

/-- A result that needs no state. -/
def ofExcept {σ α : Type} : Except Fault α → Update σ α
  | .ok a => pure a
  | .error e => throw e

/-- Runs an update of the part that `get` reads and `set` writes. -/
def on {σ τ α : Type} (get : σ → τ) (set : τ → σ → σ) (part : Update τ α) : Update σ α := fun s =>
  match part (get s) with
  | .ok a t => .ok a (set t s)
  | .error e t => .error e (set t s)

/-- Runs `body` and then `close`, also when `body` fails; the fault of `body` is the one that is
reported. -/
def lastly {σ α : Type} (body : Update σ α) (close : Update σ Unit) : Update σ α := fun s =>
  match body s with
  | .ok a t =>
    match close t with
    | .ok _ u => .ok a u
    | .error e u => .error e u
  | .error e t =>
    match close t with
    | .ok _ u => .error e u
    | .error _ u => .error e u

/-- The state that an update leaves, whether or not it failed. -/
def final {σ α : Type} (u : Update σ α) (s : σ) : σ :=
  match u s with
  | .ok _ t => t
  | .error _ t => t

/-- Whether an update fails on a state. -/
def fails {σ α : Type} (u : Update σ α) (s : σ) : Bool :=
  match u s with
  | .ok _ _ => false
  | .error _ _ => true

end Update

end SourceEditor

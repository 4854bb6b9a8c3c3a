import SourceEditor.Document.Surface
import SourceEditor.Style.Range
import SourceEditor.Style.Run
import SourceEditor.Syntax.Node

/-!
# The highlight cache

Highlighting passes paint into a cache that has a slot for every character of a document, and one
more. `Cache.reconcile` then writes what was painted to the document, in as few steps as there are
runs of equal style, and leaves the cache empty.
-/

namespace SourceEditor

/-- A style or none for every character. -/
structure Cache where
  slots : List (Option Style) := []
  deriving DecidableEq, Repr

namespace Cache

def size (c : Cache) : Nat := c.slots.length

/-- The cache with the slots of a document of `length` characters. -/
def resize (c : Cache) (length : Nat) : Cache :=
  { slots := c.slots.take (length + 1) ++ List.replicate (length + 1 - c.size) none }

/-- The most slots that a cache can have, when each takes up eleven bytes. -/
def maxSize : Nat := maxAllocation / 11

/-- Sizes the cache for as many characters as are asked for, if it can have so many slots. -/
def ensureLength (length : Nat) : Update Cache Unit :=
  if length + 1 ≤ maxSize then modify fun c => c.resize length else throw .overflow

/-- Whether nothing is painted. -/
def isDrained (c : Cache) : Bool := c.slots.all Option.isNone

def get? (c : Cache) (offset : Nat) : Option Style := c.slots[offset]?.join

/-- Paints a range. What was painted there before is painted over, and what lies past the last slot
is dropped. -/
def paint (c : Cache) (range : Span) (style : Style) : Cache :=
  { slots := changeRange (fun _ => some style) range.start (range.stop - range.start) c.slots }

/-- The cache with a range empty. -/
def clear (c : Cache) (range : Span) : Cache :=
  { slots := changeRange (fun _ => none) range.start (range.stop - range.start) c.slots }

section

variable {D : Type} [Surface D]

/-- Runs an update of the document. -/
def onDocument {α : Type} (update : Update D α) : Update (Cache × D) α :=
  Update.on Prod.snd (fun d s => (s.1, d)) update

/-- Goes through the slots from an offset on, from one stretch of equal slots to the next. Each
stretch is emptied, and what of it lies inside a document of `length` characters is written there if
it holds a style. Gives the runs that were written. -/
def writeFrom (length start : Nat) (slots : List (Option Style)) :
    Update (Cache × D) (List Run) :=
  match slots with
  | [] => return []
  | slot :: slots => do
    let stop := start + 1 + (slots.takeWhile (· == slot)).length
    modify fun s => (s.1.clear ⟨start, stop⟩, s.2)
    let run? := slot.bind fun style => Run.clip? length ⟨start, stop - start, style⟩
    match run? with
    | none => writeFrom length stop (slots.dropWhile (· == slot))
    | some run =>
      onDocument (Surface.changeStyle run.start run.count run.style true)
      let runs ← writeFrom length stop (slots.dropWhile (· == slot))
      return run :: runs
termination_by slots.length
decreasing_by all_goals
  exact Nat.lt_succ_of_le (List.dropWhile_sublist _).length_le

/-- Writes what is painted to the document, under its write lock, and empties the cache. -/
def reconcile : Update (Cache × D) (List Run) := do
  onDocument Surface.lock
  let (cache, document) ← get
  Update.lastly (writeFrom (Surface.length document) 0 cache.slots) (onDocument Surface.unlock)

end

end Cache

end SourceEditor

/-!
# Paths

A path is text in which slashes part the components. Repeated slashes, a slash at the end and `.`
components other than a leading one do not count: two paths are the same when their components are.
-/

namespace SourceEditor

/-- A path, as it is written. -/
structure Path where
  chars : List Char
  deriving DecidableEq, Repr

namespace Path

/-- A component of a path. -/
inductive Component where
  /-- The slash that an absolute path starts with. -/
  | root
  /-- A leading dot. -/
  | current
  | parent
  | name (chars : List Char)
  deriving DecidableEq, Repr

def ofString (s : String) : Path := ⟨s.toList⟩

def toString (p : Path) : String := String.ofList p.chars

def isAbsolute (p : Path) : Bool := p.chars.head? == some '/'

/-- The pieces between the slashes of a text; there is one more than there are slashes. -/
def pieces : List Char → List (List Char)
  | [] => [[]]
  | c :: cs =>
    if c == '/' then [] :: pieces cs
    else
      match pieces cs with
      | [] => [[c]]
      | w :: ws => (c :: w) :: ws

/-- The component that a piece stands for, unless it does not count. -/
def component? (piece : List Char) : Option Component :=
  if piece == [] || piece == ['.'] then none
  else if piece == ['.', '.'] then some .parent
  else some (.name piece)

/-- The components of a path. -/
def components (p : Path) : List Component :=
  let parts := pieces p.chars
  (if p.isAbsolute then [.root] else if parts.head? == some ['.'] then [.current] else []) ++
    parts.filterMap component?

/-- Whether two paths have the same components. -/
def same (p q : Path) : Bool := p.components == q.components

/-- The name at the end of a path. -/
def fileName? (p : Path) : Option (List Char) :=
  match p.components.getLast? with
  | some (.name n) => some n
  | _ => none

/-- What follows the last dot of the name, unless the name starts with that dot. -/
def extension? (p : Path) : Option (List Char) :=
  match p.fileName? with
  | none => none
  | some n =>
    if '.' ∈ n.drop 1 then some (n.reverse.takeWhile (· != '.')).reverse else none

/-- Takes from the end of a reversed path what does not count: slashes and `.` components. The
first slash of an absolute path stays. -/
def trimReversed (absolute : Bool) : List Char → List Char
  | ['/'] => if absolute then ['/'] else []
  | '/' :: cs => trimReversed absolute cs
  | '.' :: '/' :: cs => if absolute && cs.isEmpty then ['/'] else trimReversed absolute cs
  | cs => cs

/-- The path without its last component. A root and the empty path have none. -/
def parent? (p : Path) : Option Path :=
  match p.components.getLast? with
  | none | some .root => none
  | some _ =>
    let trimmed := trimReversed p.isAbsolute p.chars.reverse
    some ⟨(trimReversed p.isAbsolute (trimmed.dropWhile (· != '/'))).reverse⟩

/-- A path inside another; an absolute path replaces it. -/
def join (base p : Path) : Path :=
  if p.isAbsolute || base.chars.isEmpty then p
  else if base.chars.getLast? == some '/' then ⟨base.chars ++ p.chars⟩
  else ⟨base.chars ++ '/' :: p.chars⟩

end Path

end SourceEditor

import SourceEditor.File.Store
import SourceEditor.Text.Offset

/-!
# File systems as values

A file system is a tree of directories with files as its leaves. A path leads from the root or from
the working directory through directories that must exist; only its last name may be missing. Names
and paths are bounded in length.
-/

namespace SourceEditor

/-- A file, or a directory with what stands in it. -/
inductive FileEntry where
  | file (bytes : ByteArray)
  | directory (children : List (List Char × FileEntry))

/-- The names that lead from a directory to a file or directory below it. -/
abbrev FileNames := List (List Char)

namespace FileEntry

/-- What stands under a name. -/
def child? (name : List Char) : FileEntry → Option FileEntry
  | .file _ => none
  | .directory children => children.lookup name

/-- What the names lead to. -/
def get? (e : FileEntry) : FileNames → Option FileEntry
  | [] => some e
  | name :: names => (e.child? name).bind (·.get? names)

/-- Puts an entry where the names lead. Directories on the way that are missing are made, and a file
on the way is left as it is. -/
def insert (new : FileEntry) : FileEntry → FileNames → FileEntry
  | _, [] => new
  | .file bytes, _ :: _ => .file bytes
  | .directory children, name :: names =>
    let inside := insert new ((children.lookup name).getD (.directory [])) names
    .directory ((name, inside) :: children.filter (·.1 != name))

mutual

/-- The files of an entry, each with its path; `above` is the path of the entry. -/
def files (above : List Char) : FileEntry → List (List Char × ByteArray)
  | .file bytes => [(above, bytes)]
  | .directory children => filesOfAll above children

/-- The files of the entries of a directory. -/
def filesOfAll (above : List Char) : List (List Char × FileEntry) → List (List Char × ByteArray)
  | [] => []
  | (name, e) :: rest => files (above ++ '/' :: name) e ++ filesOfAll above rest

end

end FileEntry

/-- A file system without links. -/
structure FileSystem where
  workingDirectory : FileNames
  root : FileEntry

namespace FileSystem

/-- The longest name of a file, in bytes. -/
def maxName : Nat := 255

/-- The longest path that is followed, in bytes. -/
def maxPath : Nat := 4095

/-- The way that a path has led from the root: its names, the last one first, each with what stands
there. -/
abbrev Trail := List (List Char × Option FileEntry)

/-- What stands at the end of a trail. -/
def endOf? (fs : FileSystem) : Trail → Option FileEntry
  | [] => some fs.root
  | (_, e?) :: _ => e?

/-- Goes one piece of a path further, from a directory. -/
def step (fs : FileSystem) (trail : Trail) (piece : List Char) : Except FileError Trail :=
  match fs.endOf? trail with
  | none => .error .notFound
  | some (.file _) => .error .notDirectory
  | some (.directory children) =>
    if piece = [] ∨ piece = ['.'] then .ok trail
    else if piece = ['.', '.'] then .ok trail.tail
    else if maxName < byteLength piece then .error .nameTooLong
    else .ok ((piece, children.lookup piece) :: trail)

/-- Why a path is refused before it is followed. -/
def refusal? (p : Path) : Option FileError :=
  if '\x00' ∈ p.chars then some .nulCharacter
  else if p.chars = [] then some .notFound
  else if maxPath < byteLength p.chars then some .nameTooLong
  else none

/-- Follows the pieces of a path. Gives the names from the root and what stands there. -/
def follow (fs : FileSystem) (p : Path) : Except FileError (FileNames × Option FileEntry) := do
  let start := if p.isAbsolute then [] else fs.workingDirectory
  let trail ← (start ++ Path.pieces p.chars).foldlM fs.step []
  return (trail.reverse.map (·.1), fs.endOf? trail)

/-- The names that a path leads to, and what stands there. -/
def locate (fs : FileSystem) (p : Path) : Except FileError (FileNames × Option FileEntry) :=
  match refusal? p with
  | some e => .error e
  | none => fs.follow p

/-- Puts an entry under names. -/
def insert (fs : FileSystem) (names : FileNames) (e : FileEntry) : FileSystem :=
  { fs with root := e.insert fs.root names }

/-- The file system after a file has been written, together with what came of it. -/
def writeBytes (fs : FileSystem) (p : Path) (bytes : ByteArray) :
    Except FileError Unit × FileSystem :=
  match fs.locate p with
  | .error e => (.error e, fs)
  | .ok (_, some (.directory _)) => (.error .isDirectory, fs)
  | .ok (names, _) => (.ok (), fs.insert names (.file bytes))

/-- The path without slashes at its end. -/
def withoutSlashes (p : Path) : Path := ⟨(p.chars.reverse.dropWhile (· == '/')).reverse⟩

/-- Makes one directory, in one that exists. -/
def makeDirectory (fs : FileSystem) (p : Path) : Except FileError Unit × FileSystem :=
  match refusal? p with
  | some e => (.error e, fs)
  | none =>
    if (withoutSlashes p).chars.isEmpty then (.error .alreadyExists, fs)
    else
      match fs.follow (withoutSlashes p) with
      | .error e => (.error e, fs)
      | .ok (_, some _) => (.error .alreadyExists, fs)
      | .ok (names, none) => (.ok (), fs.insert names (.directory []))

def isDirectory (fs : FileSystem) (p : Path) : Bool :=
  match fs.locate p with
  | .ok (_, some (.directory _)) => true
  | _ => false

/-- Makes a directory, or finds it made. -/
def makeOrFindDirectory (fs : FileSystem) (p : Path) : Except FileError Unit × FileSystem :=
  match fs.makeDirectory p with
  | (.ok _, fs) => (.ok (), fs)
  | (.error .notFound, fs) => (.error .notFound, fs)
  | (.error e, fs) => (if fs.isDirectory p then .ok () else .error e, fs)

/-- Makes a directory. If the one that it lies in is missing, that is made first, for at most so
many steps up. -/
def makeDirectories : (steps : Nat) → FileSystem → Path → Except FileError Unit × FileSystem
  | 0, fs, p => fs.makeOrFindDirectory p
  | steps + 1, fs, p =>
    if p.chars.isEmpty then (.ok (), fs)
    else
      match fs.makeOrFindDirectory p, p.parent? with
      | (.error .notFound, fs), some parent =>
        match makeDirectories steps fs parent with
        | (.ok _, fs) => fs.makeOrFindDirectory p
        | (.error e, fs) => (.error e, fs)
      | result, _ => result

/-- Makes a directory and all those it lies in. -/
def ensureDirectory (fs : FileSystem) (p : Path) : Except FileError Unit × FileSystem :=
  makeDirectories (p.chars.length + 1) fs p

/-- The absolute path of names. -/
def absolutePath : FileNames → Path
  | [] => ⟨['/']⟩
  | names => ⟨names.flatMap ('/' :: ·)⟩

/-- The names and the entry of something that exists. -/
def find (fs : FileSystem) (p : Path) : Except FileError (FileNames × FileEntry) :=
  match fs.locate p with
  | .error e => .error e
  | .ok (_, none) => .error .notFound
  | .ok (names, some e) => .ok (names, e)

/-- The absolute path of something that exists. It is bounded in length like any other. -/
def absolute (fs : FileSystem) (p : Path) : Except FileError Path :=
  match fs.find p with
  | .error e => .error e
  | .ok (names, _) =>
    if maxPath < byteLength (absolutePath names).chars then .error .nameTooLong
    else .ok (absolutePath names)

/-- The text of a file. -/
def readText (fs : FileSystem) (p : Path) : Except FileError (List Char) :=
  match fs.find p with
  | .error e => .error e
  | .ok (_, .directory _) => .error .isDirectory
  | .ok (_, .file bytes) =>
    match String.fromUTF8? bytes with
    | some s => .ok s.toList
    | none => .error .notText

/-- Makes an empty file if it is missing. -/
def ensureFile (fs : FileSystem) (p : Path) : Except FileError Unit × FileSystem :=
  match fs.find p with
  | .ok (_, .file _) => (.ok (), fs)
  | _ => fs.writeBytes p .empty

instance : FileStore (StateM FileSystem) where
  readText p fs := (fs.readText p, fs)
  isPresent p fs := ((fs.find p).isOk, fs)
  writeText p text fs := fs.writeBytes p (String.ofList text).toUTF8
  ensureFile p fs := fs.ensureFile p
  ensureDirectory p fs := fs.ensureDirectory p
  absolute p fs := (fs.absolute p, fs)

/-- Writes a file and makes the directories for it. What cannot be made is left out. -/
def put (fs : FileSystem) (p : Path) (bytes : ByteArray) : FileSystem :=
  let fs := match p.parent? with
    | some parent => (fs.ensureDirectory parent).2
    | none => fs
  (fs.writeBytes p bytes).2

/-- A file system with a working directory and files at paths from there. -/
def ofFiles (workingDirectory : FileNames) (files : List (Path × ByteArray)) : FileSystem :=
  let root := (FileEntry.directory []).insert (.directory []) workingDirectory
  files.foldl (fun fs file => fs.put file.1 file.2) { workingDirectory, root }

/-- The files in the working directory and below, by their paths from there. -/
def files (fs : FileSystem) : List (Path × ByteArray) :=
  match fs.root.get? fs.workingDirectory with
  | none => []
  | some e => (e.files []).map fun (path, bytes) => (⟨path.drop 1⟩, bytes)

end FileSystem

end SourceEditor

import SourceEditor.Command.Program

/-!
# The command line

Runs the program on the files of the machine. No external parser is linked in: a Java source is
taken for a program without parts, and is highlighted by its tokens.
-/

namespace SourceEditor

/-- What went wrong with a file. -/
def FileError.ofError : IO.Error → FileError
  | .noFileOrDirectory .. => .notFound
  | .alreadyExists .. => .alreadyExists
  | .inappropriateType _ 20 _ => .notDirectory
  | .inappropriateType _ 21 _ => .isDirectory
  | .invalidArgument _ 36 _ => .nameTooLong
  | e => .other (ToString.toString e)

/-- Runs an operation on a path and gives its error as a value. -/
def FileStore.attempt {α : Type} (p : Path) (action : String → IO α) : IO (Except FileError α) := do
  if '\x00' ∈ p.chars then return .error .nulCharacter
  match ← (action p.toString).toBaseIO with
  | .ok a => return .ok a
  | .error e => return .error (.ofError e)

instance : FileStore IO where
  readText p := do
    match ← FileStore.attempt p (IO.FS.readBinFile ·) with
    | .error e => return .error e
    | .ok bytes =>
      match String.fromUTF8? bytes with
      | some s => return .ok s.toList
      | none => return .error .notText
  isPresent p := return (← FileStore.attempt p (IO.FS.realPath ·)).isOk
  writeText p text := FileStore.attempt p (IO.FS.writeFile · (String.ofList text))
  ensureFile p := FileStore.attempt p fun path => do
    let handle ← IO.FS.Handle.mk path .append
    handle.flush
  ensureDirectory p :=
    if p.chars.isEmpty then return .ok ()
    else FileStore.attempt p (IO.FS.createDirAll ·)
  absolute p := do
    match ← FileStore.attempt p (IO.FS.realPath ·) with
    | .error e => return .error e
    | .ok real => return .ok (.ofString real.toString)

/-- The variables that the program looks at. -/
def environmentNames : List String := ["HOME", "XDG_CONFIG_HOME", "XDG_DATA_HOME", "WREN_CONFIG"]

/-- The number of the process, which the machine shows in a file. -/
def processId : IO (List Char) := do
  match ← FileStore.readText (.ofString "/proc/self/stat") with
  | .ok text => return text.takeWhile Char.isDigit
  | .error _ => return ['0']

end SourceEditor

open SourceEditor

/-- Runs the program with the arguments of the command line. -/
def main (arguments : List String) : IO UInt32 := do
  let known ← environmentNames.filterMapM fun name => do
    return (← IO.getEnv name).map fun text => (name, text.toList)
  let env : Environment :=
    { value? := fun name => known.lookup name
      processId := ← processId
      java := noJavaParts }
  let outcome ← (Program.run env (arguments.map String.toList) : IO Outcome)
  IO.print (String.ofList outcome.output)
  IO.eprint (String.ofList outcome.diagnostics)
  return UInt32.ofNat outcome.code

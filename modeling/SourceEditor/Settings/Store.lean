import SourceEditor.File.Store
import SourceEditor.Settings.Table
import SourceEditor.Toml.Format

/-!
# Settings files

Settings are kept as TOML. They are loaded from a file that the user names, which must exist, or
else from the usual one if it exists. Saving makes the directories that are missing.
-/

namespace SourceEditor

/-- Why settings could not be loaded or saved. -/
inductive SettingsError where
  | unreadable (path : Path) (cause : FileError)
  | malformed (path : Path)
  | tooLarge
  | noDirectory (path : Path) (cause : FileError)
  | unwritable (path : Path) (cause : FileError)
  deriving DecidableEq, Repr

namespace SettingsError

/-- The text shown for an error, without its cause. -/
def message : SettingsError → String
  | .unreadable path _ => "Failed to read settings file: " ++ path.toString
  | .malformed path => "Failed to parse settings file: " ++ path.toString
  | .tooLarge => "Failed to serialize settings"
  | .noDirectory path _ => "Failed to create directory: " ++ path.toString
  | .unwritable path _ => "Failed to write settings file: " ++ path.toString

/-- The text shown for the cause of an error. -/
def cause : SettingsError → String
  | .unreadable _ e | .noDirectory _ e | .unwritable _ e => e.message
  | .malformed _ => "TOML parse error"
  | .tooLarge => "out-of-range value for u64 type"

end SettingsError

namespace Settings

variable {m : Type → Type} [Monad m] [FileStore m]

/-- Loads settings from a file. -/
def load (path : Path) : m (Except SettingsError Settings) := do
  match ← FileStore.readText path with
  | .error e => return .error (.unreadable path e)
  | .ok text =>
    match ofText? Toml.format text with
    | some settings => return .ok settings
    | none => return .error (.malformed path)

/-- Loads settings from the file that the user names, else from the usual one if it exists, else
takes the defaults. -/
def loadFirst (named usual : Option Path) : m (Except SettingsError Settings) := do
  match named, usual with
  | some path, _ => load path
  | none, some path => if ← FileStore.isPresent path then load path else return .ok {}
  | none, none => return .ok {}

/-- Saves settings to a file. -/
def save (settings : Settings) (path : Path) : m (Except SettingsError Unit) := do
  let parent := path.parent?
  let made ← match parent with
    | some parent => FileStore.ensureDirectory parent
    | none => pure (.ok ())
  match made, settings.toText? Toml.format with
  | .error e, _ => return .error (.noDirectory (parent.getD path) e)
  | .ok _, none => return .error .tooLarge
  | .ok _, some text =>
    match ← FileStore.writeText path text with
    | .error e => return .error (.unwritable path e)
    | .ok _ => return .ok ()

end Settings

end SourceEditor

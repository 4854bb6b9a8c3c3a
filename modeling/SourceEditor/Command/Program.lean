import SourceEditor.Command.Arguments
import SourceEditor.Command.Highlighting
import SourceEditor.Settings.Store
import SourceEditor.Token.Listing

/-!
# The program

What the program does with its arguments: it opens a log file, loads the settings, and carries out
the command. Each of the three may end it with a message. The program runs on any file store, and
gives its exit code and what it prints as a value.
-/

namespace SourceEditor

/-- What the program finds around it. -/
structure Environment where
  /-- The value of a variable. -/
  value? : String → Option (List Char)
  /-- The number of the process, in decimal. -/
  processId : List Char
  /-- The external parser for Java. -/
  java : ExternalParser

namespace Environment

/-- The home directory of the user. -/
def home? (env : Environment) : Option Path :=
  match env.value? "HOME" with
  | some (c :: cs) => some ⟨c :: cs⟩
  | _ => none

/-- The directory that a variable names, if its path is absolute, or else one in the home
directory. -/
def directory? (env : Environment) (name below : String) : Option Path :=
  let named := (env.value? name).map Path.mk
  match named.filter Path.isAbsolute with
  | some p => some p
  | none => env.home?.map fun home => home.join (.ofString below)

/-- The file of the settings where the user names none. -/
def settingsPath? (env : Environment) : Option Path :=
  (env.directory? "XDG_CONFIG_HOME" ".config").map fun dir =>
    dir.join (.ofString "wren/settings.toml")

/-- The name of the log file where the user gives none. -/
def logName (env : Environment) : Path := ⟨"wren-".toList ++ env.processId ++ ".log".toList⟩

/-- The directory and the name of the log file. A path that the user gives is that of the file if it
has an extension, and that of the directory otherwise. -/
def logPath (env : Environment) : Option Path → Path × Path
  | some p =>
    match p.extension? with
    | some _ => ((p.parent?).getD (.ofString "."), ((p.fileName?).map Path.mk).getD env.logName)
    | none => (p, env.logName)
  | none =>
    let data := (env.directory? "XDG_DATA_HOME" ".local/share").getD (.ofString ".")
    (data.join (.ofString "wren/logs"), env.logName)

end Environment

/-- Why a command failed. -/
inductive CommandError where
  | noLanguage (file : Path)
  | unreadable (file : Path) (cause : FileError)
  | unresolved (file : Path) (cause : FileError)
  | noSettingsPath
  | settings (e : SettingsError)
  /-- The session failed. -/
  | fault (f : Fault)
  deriving DecidableEq, Repr

namespace CommandError

/-- The text shown for an error, without its cause. -/
def message : CommandError → String
  | .noLanguage file => "No language for file: " ++ file.toString
  | .unreadable file _ => "Failed to read source file: " ++ file.toString
  | .unresolved file _ => "Failed to resolve path: " ++ file.toString
  | .noSettingsPath => "No settings path to remember the file in"
  | .settings e => e.message
  | .fault f => f.message.getD "arithmetic overflow"

/-- The text shown for the cause of an error, if it has one. -/
def cause? : CommandError → Option String
  | .unreadable _ e | .unresolved _ e => some e.message
  | .settings e => some e.cause
  | .noLanguage _ | .noSettingsPath | .fault _ => none

/-- The whole text shown for an error. -/
def fullMessage (e : CommandError) : String :=
  match e.cause? with
  | some cause => e.message ++ ": " ++ cause
  | none => e.message

end CommandError

/-- What a run of the program comes to. -/
structure Outcome where
  code : Nat
  output : List Char
  /-- What is printed apart from the output. -/
  diagnostics : List Char
  deriving DecidableEq, Repr

namespace Outcome

def success (output : List Char) : Outcome := ⟨0, output, []⟩

/-- A failure with a message. -/
def failure (code : Nat) (output : List Char) (text : String) : Outcome :=
  ⟨code, output, (text ++ "\n").toList⟩

end Outcome

namespace Program

/-- The name and version of the program. -/
def version : String := "wren_bin 0.1.0\n"

/-- How the program is called. -/
def usage : String :=
  "Usage: wren [--config <CONFIG>] [--log-file <LOG_FILE>] <COMMAND>\n\n" ++
  "Commands:\n" ++
  "  highlight  Highlight a Java or Kotlin file and print it with ANSI colors\n" ++
  "  tokens     Print the token stream of a Java or Kotlin file\n" ++
  "  help       Print this message\n"

/-- The end of a program whose arguments make up no command. -/
def usageOutcome : UsageError → Outcome
  | .helpRequested => .success usage.toList
  | .versionRequested => .success version.toList
  | _ => .failure 2 [] usage

variable {m : Type → Type} [Monad m] [FileStore m]

/-- The printed form of a file. -/
def render (java : ExternalParser) (request : HighlightRequest) (settings : Settings)
    (file : Path) : m (Except CommandError (List Char)) := do
  match ← FileStore.readText file with
  | .error e => return .error (.unreadable file e)
  | .ok text =>
    match request.render java settings (file.fileName?.getD []) text with
    | .error f => return .error (.fault f)
    | .ok printed => return .ok printed

/-- Notes in the settings file that a file was opened. -/
def remember (settings : Settings) (settingsPath : Option Path) (file : Path) :
    m (Except CommandError Unit) := do
  match settingsPath with
  | none => return .error .noSettingsPath
  | some path =>
    match ← FileStore.absolute file with
    | .error e => return .error (.unresolved file e)
    | .ok absolute =>
      match ← (settings.remember absolute).save path with
      | .error e => return .error (.settings e)
      | .ok _ => return .ok ()

/-- Prints a file with its colors. Gives what is printed, also when a later step fails. -/
def highlight (java : ExternalParser) (request : HighlightRequest) (settings : Settings)
    (settingsPath : Option Path) (file : Path) (remembered : Bool) :
    m (List Char × Except CommandError Unit) := do
  match ← render java request settings file with
  | .error e => return ([], .error e)
  | .ok printed =>
    let output := printed ++ ['\n']
    if remembered then return (output, ← remember settings settingsPath file)
    else return (output, .ok ())

/-- Prints the tokens of a file. -/
def tokens (file : Path) : m (List Char × Except CommandError Unit) := do
  match Language.detect? (file.fileName?.getD []) with
  | none => return ([], .error (.noLanguage file))
  | some language =>
    match ← FileStore.readText file with
    | .error e => return ([], .error (.unreadable file e))
    | .ok text => return ((tokenListing (language.tokens text)).toList, .ok ())

/-- Carries out a command. -/
def perform (java : ExternalParser) (settings : Settings) (settingsPath : Option Path) :
    Command → m (List Char × Except CommandError Unit)
  | .highlight file noLexical noSemantic remembered =>
    highlight java { noLexical, noSemantic } settings settingsPath file remembered
  | .tokens file => tokens file

/-- Runs a complete command line on settings that have been loaded. -/
def runCommand (env : Environment) (settings : Settings) (invocation : Invocation) : m Outcome := do
  let settingsPath := invocation.config.or env.settingsPath?
  let (output, result) ← perform env.java settings settingsPath invocation.command
  match result with
  | .ok _ => return .success output
  | .error (.fault f) => return .failure 101 output (CommandError.fault f).message
  | .error e => return .failure 1 output ("Command failed: " ++ e.fullMessage)

/-- Opens the log file. -/
def openLog (env : Environment) (logFile : Option Path) : m (Except Outcome Unit) := do
  let (directory, name) := env.logPath logFile
  match ← FileStore.ensureDirectory directory with
  | .error e =>
    return .error (.failure 1 [] ("Error: Failed to initialize logging: " ++ e.message))
  | .ok _ =>
    match ← FileStore.ensureFile (directory.join name) with
    | .error e => return .error (.failure 101 [] e.message)
    | .ok _ => return .ok ()

/-- Runs the program. -/
def run (env : Environment) (as : List Argument) : m Outcome := do
  match Arguments.read (env.value? "WREN_CONFIG") as with
  | .error e => return usageOutcome e
  | .ok invocation =>
    match ← openLog env invocation.logFile with
    | .error outcome => return outcome
    | .ok _ =>
      match ← Settings.loadFirst invocation.config env.settingsPath? with
      | .error e => return .failure 1 [] ("Error: " ++ (CommandError.settings e).fullMessage)
      | .ok settings => runCommand env settings invocation

end Program

end SourceEditor

import SourceEditor.File.Path

/-!
# Command-line arguments

The program has two commands, each with a file:

* `highlight FILE [--no-lexical] [--no-semantic] [--remember]`
* `tokens FILE`

and the options `--config PATH` and `--log-file PATH`, which may stand before or after the name of
the command. Arguments are read from left to right on two levels, before and after the name of the
command. The value of an option or the file is examined only when the next option or the end of its
level is reached, so that an error further on may be reported first.
-/

namespace SourceEditor

/-- One argument. -/
abbrev Argument := List Char

/-- Why arguments do not make up a command. The first two are requests rather than mistakes. -/
inductive UsageError where
  | helpRequested
  | versionRequested
  /-- Nothing was given at all. -/
  | nothingGiven
  | noCommand
  | unknownCommand
  | unknownArgument
  /-- An option or a file without a value, or with an empty one. -/
  | noValue
  /-- A value for an option that takes none. -/
  | unwantedValue
  /-- An option was given twice on one level. -/
  | repeated
  | noFile
  deriving DecidableEq, Repr

/-- What is to be done with a file. -/
inductive Command where
  | highlight (file : Path) (noLexical noSemantic remember : Bool)
  | tokens (file : Path)
  deriving DecidableEq, Repr

/-- A complete command line. -/
structure Invocation where
  config : Option Path
  logFile : Option Path
  command : Command
  deriving DecidableEq, Repr

namespace Arguments

/-- What takes a value. -/
inductive Slot where
  | config
  | logFile
  | file
  deriving DecidableEq, Repr

/-- What is switched on by its name. -/
inductive Switch where
  | noLexical
  | noSemantic
  | remember
  deriving DecidableEq, Repr

/-- Where arguments stand: before the name of a command, or after it. -/
inductive Level where
  | top
  | highlight
  | tokens
  deriving DecidableEq, Repr

/-- What an option does. -/
inductive Action where
  | value (slot : Slot)
  | switch (switch : Switch)
  | help
  | version
  deriving DecidableEq, Repr

/-- The long options of a level. -/
def Level.longAction? (level : Level) (name : List Char) : Option Action :=
  match String.ofList name, level with
  | "config", _ => some (.value .config)
  | "log-file", _ => some (.value .logFile)
  | "help", _ => some .help
  | "version", .top => some .version
  | "no-lexical", .highlight => some (.switch .noLexical)
  | "no-semantic", .highlight => some (.switch .noSemantic)
  | "remember", .highlight => some (.switch .remember)
  | _, _ => none

/-- The options of one letter of a level. -/
def Level.shortAction? (level : Level) (letter : Char) : Option Action :=
  match letter, level with
  | 'h', _ => some .help
  | 'V', .top => some .version
  | _, _ => none

/-- The name of a command, or the word that asks for help. -/
inductive CommandName where
  | help
  | command (level : Level)
  deriving DecidableEq, Repr

def commandName? (a : Argument) : Option CommandName :=
  match String.ofList a with
  | "highlight" => some (.command .highlight)
  | "tokens" => some (.command .tokens)
  | "help" => some .help
  | _ => none

/-- What has been read on one level. -/
structure Found where
  /-- The values that have been examined. -/
  values : List (Slot × Argument) := []
  switches : List Switch := []
  /-- A value that has not been examined, or an option that still lacks its value. -/
  pending : Option (Slot × Option Argument) := none
  /-- Whether a file has been given. -/
  hasFile : Bool := false
  /-- Whether all further arguments are values. -/
  onlyValues : Bool := false
  deriving DecidableEq, Repr

namespace Found

/-- Whether an option lacks its value. -/
def isWaiting (f : Found) : Bool :=
  match f.pending with
  | some (_, none) => true
  | _ => false

/-- Examines the pending value. -/
def settle (f : Found) : Except UsageError Found :=
  match f.pending with
  | none => .ok f
  | some (_, none) => .error .noValue
  | some (slot, some a) =>
    if (f.values.lookup slot).isSome then .error .repeated
    else if a = [] then .error .noValue
    else .ok { f with values := (slot, a) :: f.values, pending := none }

/-- Starts an option that takes a value, which may be attached to it. -/
def startValue (f : Found) (slot : Slot) : Option Argument → Except UsageError Found
  | some a => do
    let f ← f.settle
    { f with pending := some (slot, some a) }.settle
  | none => do
    let f ← f.settle
    return { f with pending := some (slot, none) }

/-- Switches something on. -/
def turnOn (f : Found) (s : Switch) : Except UsageError Found := do
  let f ← f.settle
  if s ∈ f.switches then .error .repeated else .ok { f with switches := s :: f.switches }

/-- Carries out an option that has no value attached. -/
def perform (f : Found) : Action → Except UsageError Found
  | .value slot => f.startValue slot none
  | .switch s => f.turnOn s
  | .help => f.settle.bind fun _ => .error .helpRequested
  | .version => f.settle.bind fun _ => .error .versionRequested

/-- Reads a long option, without its dashes. -/
def readLong (level : Level) (f : Found) (a : Argument) : Except UsageError Found :=
  let name := a.takeWhile (· != '=')
  let attached := (a.dropWhile (· != '=')).tail?
  match level.longAction? name, attached with
  | none, _ => .error .unknownArgument
  | some (.value slot), some v => f.startValue slot (some v)
  | some _, some _ => .error .unwantedValue
  | some action, none => f.perform action

/-- Reads options of one letter, without their dash. -/
def readShort (level : Level) : Found → List Char → Except UsageError Found
  | f, [] => .ok f
  | f, c :: cs =>
    match level.shortAction? c with
    | none => .error .unknownArgument
    | some action => (f.perform action).bind fun f => readShort level f cs

/-- Reads an argument that is no option and no value of one. -/
def readFile (level : Level) (f : Found) (a : Argument) : Except UsageError Found :=
  match level with
  | .top =>
    .error (if f.onlyValues && (commandName? a).isSome then .unknownArgument else .unknownCommand)
  | _ =>
    if f.hasFile then .error .unknownArgument
    else do
      let f ← f.settle
      return { f with pending := some (.file, some a), hasFile := true }

/-- Reads an argument that is not the name of a command. -/
def read (level : Level) (f : Found) (a : Argument) : Except UsageError Found :=
  if f.onlyValues then f.readFile level a
  else
    match a with
    | ['-', '-'] => .ok { f with onlyValues := true }
    | '-' :: '-' :: a => f.readLong level a
    | '-' :: c :: cs => f.readShort level (c :: cs)
    | _ =>
      match f.pending with
      | some (slot, none) => .ok { f with pending := some (slot, some a) }
      | _ => f.readFile level a

/-- The end of a level: examines what is pending. A file name for the settings that comes from the
environment is examined where the level has none. -/
def finish (f : Found) (environment : Option Argument) : Except UsageError Found := do
  let f ← f.settle
  if (f.values.lookup .config).isNone && environment == some [] then .error .noValue else .ok f

end Found

/-- Reads the arguments after the name of a command. -/
def readCommand (level : Level) (environment : Option Argument) (as : List Argument) :
    Except UsageError Found := do
  let found ← as.foldlM (Found.read level) {}
  let found ← found.finish environment
  if (found.values.lookup .file).isNone then .error .noFile else .ok found

/-- What a request for help with the given words comes to: each must name a command. -/
def helpOutcome : List Argument → UsageError
  | [] => .helpRequested
  | [a] => if (commandName? a).isSome then .helpRequested else .unknownCommand
  | _ => .unknownCommand

/-- Reads the arguments before the name of a command: gives what was found, and the command with the
arguments after it. -/
def readTop : Found → List Argument → Except UsageError (Found × Option (Level × List Argument))
  | f, [] => .ok (f, none)
  | f, a :: as =>
    match if f.onlyValues || f.isWaiting then none else commandName? a with
    | some .help => .error (helpOutcome as)
    | some (.command level) => .ok (f, some (level, as))
    | none => (f.read .top a).bind fun f => readTop f as

/-- The command that has been found. -/
def command (level : Level) (f : Found) : Command :=
  let file : Path := ⟨(f.values.lookup .file).getD []⟩
  match level with
  | .highlight =>
    .highlight file (.noLexical ∈ f.switches) (.noSemantic ∈ f.switches) (.remember ∈ f.switches)
  | _ => .tokens file

/-- Reads a command line. The settings file may also be named by the environment; on the command
line the later level counts. -/
def read (environment : Option Argument) (as : List Argument) : Except UsageError Invocation := do
  let (top, rest) ← readTop {} as
  match rest with
  | none =>
    let top ← top.finish environment
    .error (if top.values.isEmpty && environment.isNone then .nothingGiven else .noCommand)
  | some (level, as) =>
    let inner ← readCommand level environment as
    let top ← top.finish environment
    let given (slot : Slot) := (inner.values.lookup slot).or (top.values.lookup slot)
    .ok
      { config := ((given .config).or environment).map Path.mk
        logFile := (given .logFile).map Path.mk
        command := command level inner }

end Arguments

end SourceEditor

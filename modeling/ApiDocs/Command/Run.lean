import ApiDocs.Command.Arguments
import ApiDocs.Command.Disk
import ApiDocs.Extract
import ApiDocs.Program.Decode
import ApiDocs.Settings.ProjectFile

/-!
# Running the command

The command loads the settings of a project and the snapshot of its program, extracts the
documentation and writes it.

## Main definitions

* `Command.configPath?` — the project file to use.
* `Command.loadSettings`, `Command.Arguments.override` — the settings in the project file, and what
  the arguments say instead.
* `Command.run` — the whole run.
* `Command.invoke` — reading the arguments, and the run.

## Design notes

**Paths are shown as they were put together.**  Relative paths are taken below the working
directory, and no path is normalized before it is used or shown.
-/

namespace ApiDocs.Command

/-- Why a run fails. -/
inductive RunError where
  | configMissing (path : String)
  | configNotFile (path : String)
  /-- The project file cannot be loaded. -/
  | settings (error : SettingsError)
  /-- The readme of a project file cannot be read. -/
  | readme (config : String) (error : SettingsError)
  | programUnreadable (path : String)
  | programMalformed (path : String)
  | extraction (error : ExtractError)
  | directory (path : String)
  | output (path : String)
deriving DecidableEq

/-- The text of an error. -/
def RunError.message : RunError → String
  | configMissing path => "config not found at " ++ path
  | configNotFile path => "config path is not a file: " ++ path
  | settings error => error.message
  | readme config _ => "failed to load " ++ config
  | programUnreadable path => "failed to read " ++ path
  | programMalformed path => "failed to parse program snapshot " ++ path
  | extraction _ => "extraction failed"
  | directory path => "failed to create directory " ++ path
  | output path => "failed to write " ++ path

/-- What a run did. -/
structure Outcome where
  /-- The number of declarations in the documentation. -/
  declarations : Nat
  /-- The file that was written; without it, the documentation was printed. -/
  output : Option String
deriving DecidableEq

/-- The name of a project file that is looked for. -/
def configName : String := "tsdoc.json"

variable {m : Type → Type} [Monad m] (disk : Disk m) (directory : String)

/-- The project file: the one that is asked for, which has to be there, or else the one in the
working directory, if there is one. -/
def configPath? : Option String → ExceptT RunError m (Option String)
  | none => do
    let path := Path.join directory configName
    if ← disk.isFile path then return some path else return none
  | some asked => do
    let given := Path.absolute directory asked
    let path := if ← disk.isDirectory given then Path.join given configName else given
    if !(← disk.isPresent path) then throw (.configMissing path)
    if !(← disk.isFile path) then throw (.configNotFile path)
    return some path

/-- The readme of a project file in the given directory. -/
def loadReadme (file : ProjectFile) (below : String) : ExceptT SettingsError m (Option String) :=
  match file.readmePath? below with
  | none => pure none
  | some path => do
    match ← disk.read path with
    | some text => pure (some text)
    | none => throw (.unreadable path)

/-- The settings in a project file; without one, those of a project that says nothing about itself
and starts at the working directory. -/
def loadSettings : Option String → ExceptT RunError m Settings
  | none => pure (ProjectFile.toSettings {} directory none)
  | some path => do
    let some text ← disk.read path | throw (.settings (.unreadable path))
    match ProjectFile.parse text path with
    | .error error => throw (.settings error)
    | .ok file =>
      let below := (Path.parent? path).getD directory
      match ← (loadReadme disk file below).run with
      | .error error => throw (.readme path error)
      | .ok readme => pure (file.toSettings below readme)

/-- The settings with what the arguments say instead. -/
def Arguments.override (arguments : Arguments) (settings : Settings) : Settings :=
  let settings :=
    { settings with
      name := arguments.name.getD settings.name
      baseDirectory :=
        (arguments.baseDirectory.map (Path.absolute directory)).getD settings.baseDirectory }
  match arguments.repository with
  | some repository => settings.withRepository repository
  | none => settings

/-- The program in a snapshot. -/
def loadProgram (path : String) : ExceptT RunError m Program := do
  let some text ← disk.read path | throw (.programUnreadable path)
  match Program.ofText? text with
  | some program => pure program
  | none => throw (.programMalformed path)

/-- Writes a text to a file, whose directory is created if need be, or prints it as a line. -/
def writeOutput (text : String) : Option String → ExceptT RunError m Unit
  | none => disk.print (text ++ "\n")
  | some path => do
    if let some above := Path.parent? path then
      if !(← disk.createDirectories above) then throw (.directory above)
    if !(← disk.write path text) then throw (.output path)

/-- The settings of a run: the project file is found, loaded and overridden. -/
def settingsFor (arguments : Arguments) : ExceptT RunError m Settings := do
  let config ← configPath? disk directory arguments.config
  let settings ← loadSettings disk directory config
  pure (arguments.override directory settings)

/-- One run in a working directory. -/
def run (arguments : Arguments) : ExceptT RunError m Outcome := do
  let settings ← settingsFor disk directory arguments
  let program ← loadProgram disk (Path.absolute directory arguments.program)
  match extract program settings with
  | .error error => throw (.extraction error)
  | .ok documentation =>
    let output := arguments.out.map (Path.absolute directory)
    writeOutput disk (documentation.toText arguments.pretty) output
    pure { declarations := documentation.declarationCount, output }

/-- How a command line ends. -/
inductive Ending where
  | done (outcome : Outcome)
  /-- The command line was not run. -/
  | refused (error : ArgumentsError)
  | failed (error : RunError)
deriving DecidableEq

/-- The exit code: a request for help or for the version is no error. -/
def Ending.exitCode : Ending → UInt8
  | done _ => 0
  | refused .help => 0
  | refused .version => 0
  | refused _ => 2
  | failed _ => 1

/-- The usage text. -/
def usage : String :=
  "Extract API documentation from a checked TypeScript project\n\n" ++
  "Usage: tsdoc [OPTIONS] --program <PROGRAM>\n\n" ++
  "Options:\n" ++
  "  -p, --program <PROGRAM>        " ++
  "Frontend snapshot (JSON) holding the parsed files, symbols and\n" ++
  "                                 bindings\n" ++
  "  -c, --config <CONFIG>          Path to tsdoc.json or a directory containing it\n" ++
  "  -o, --out <OUT>                Write the documentation here instead of stdout\n" ++
  "      --pretty                   Pretty-print the JSON output\n" ++
  "      --name <NAME>              Project name used for the root module\n" ++
  "      --baseDir <BASE_DIR>       Directory module paths are derived from\n" ++
  "      --repository <REPOSITORY>  Base URL source locators are built from\n" ++
  "  -h, --help                     Print help\n" ++
  "  -V, --version                  Print version\n"

/-- The version line. -/
def versionLine : String := "tsdoc 0.1.0\n"

/-- Reads the words of a command line and runs the command in a working directory. -/
def invoke (words : List String) : m Ending :=
  match Arguments.parse words with
  | .error error => do
    match error with
    | .help => disk.print usage
    | .version => disk.print versionLine
    | _ => pure ()
    pure (.refused error)
  | .ok arguments => do
    match ← (run disk directory arguments).run with
    | .ok outcome => pure (.done outcome)
    | .error error => pure (.failed error)

end ApiDocs.Command

import ColorTheme.CommandLine.Help
import ColorTheme.Config
import ColorTheme.Files.Tree
import ColorTheme.Report
import ColorTheme.Text.Harmless

/-!
# Runs

What a command line does, given how files are read: what it prints and logs, how it ends, and the
file it wants to be written.  Whether that file can be written is known only afterwards, and
`Run.wrote` and `Run.refused` end the run then.

* `Run.ofArguments` is the whole run for the words of a command line, `Run.ofInvocation` for what
  they ask for.
* `checkTheme` and `buildTheme` work on a single file; both read it by `readTheme`.
* `FileTree.perform` and `FileTree.execute` carry out a run on a tree of files.
-/

set_option autoImplicit false

namespace ColorTheme

/-- How much a message of the log matters. -/
inductive Level
  | debug
  | info
  | warn
  | error
deriving Repr, DecidableEq

/-- The name of a level in the log. -/
def Level.name : Level → String
  | .debug => "DEBUG"
  | .info => "INFO"
  | .warn => "WARN"
  | .error => "ERROR"

/-- What a run tells besides its output. -/
inductive Event
  | message (level : Level) (text : String)
  | report (r : Report)
  | remark (text : String)
deriving Repr, DecidableEq

/-- The message of an event that is one for everybody, as a terminal may show it. -/
def Event.message? : Event → Option (Level × String)
  | message .debug _ => none
  | message level text => some (level, harmless text)
  | _ => none

/-- A file with its text. -/
structure TextFile where
  name : String
  text : String
deriving Repr, DecidableEq

/-- What comes of a command line: its exit code, its output, the events on the way, and a file
that is still to be written. -/
structure Run where
  exit : Nat := 0
  stdout : String := ""
  events : List Event := []
  file : Option TextFile := none

/-- How files are read by their names. -/
abbrev ReadFile := String → Except FileError String

/-! ## Configuration -/

/-- Why there is no configuration. -/
inductive ConfigError
  | unreadable (name : String) (failure : FileError)
  | invalid (name : String)
deriving Repr, DecidableEq

/-- The wording of a failure. -/
def ConfigError.message : ConfigError → String
  | unreadable name failure => "failed to read " ++ name ++ ": " ++ failure.message
  | invalid name => "invalid configuration in " ++ name

namespace Config

/-- The configuration in the file of the given name. -/
def load (read : ReadFile) (name : String) : Except ConfigError Config :=
  match read name with
  | .error failure => .error (.unreadable name failure)
  | .ok source =>
    match ofToml? source with
    | some config => .ok config
    | none => .error (.invalid name)

/-- The configuration of the working directory, with defaults when it has no such file. -/
def discover (read : ReadFile) : Except ConfigError Config :=
  match read fileName with
  | .error .notText => .error (.unreadable fileName .notText)
  | .error _ => .ok ({} : Config)
  | .ok _ => load read fileName

/-- The configuration of an invocation. -/
def ofInvocation (read : ReadFile) (invocation : Invocation) : Except ConfigError Config :=
  let found := match invocation.configFile with
    | some name => load read name
    | none => discover read
  found.map fun config =>
    if invocation.allowIncompleteAnsi then { config with strictAnsi := false } else config

end Config

/-! ## Themes in files -/

/-- Why a file gives no theme. -/
inductive FileRefusal
  | unreadable (failure : FileError)
  | refused (cause : ThemeError)
deriving Repr, DecidableEq

/-- That a file cannot be read, in words. -/
def unreadableMessage (name : String) (failure : FileError) : String :=
  "Failed to read file: " ++ name ++ ": " ++ failure.message

/-- The theme in a file, and the reports on the file. -/
def readTheme (config : Config) (read : ReadFile) (name : String) :
    List Event × Except FileRefusal Theme :=
  match read name with
  | .error failure => ([], .error (.unreadable failure))
  | .ok source =>
    let a := Analysis.ofSource .standard source
    let reports := a.diagnostics.map fun d => Event.report (.ofDiagnostic name source d)
    match Theme.ofAnalysis config.strictAnsi a with
    | .error cause => (reports, .error (.refused cause))
    | .ok theme => (reports ++ theme.warnings.map (.message .warn), .ok theme)

/-- The events of checking a file, and whether it passes. -/
def checkTheme (config : Config) (read : ReadFile) (name : String) : List Event × Bool :=
  let (events, found) := readTheme config read name
  let (verdict, passes) := match found with
    | .error (.unreadable failure) =>
      (Event.message .error ("Error processing " ++ name ++ ": " ++ unreadableMessage name failure),
        false)
    | .error (.refused cause) => (.message .error (name ++ ": " ++ cause.message), false)
    | .ok _ => (.message .info (name ++ ": ok"), true)
  (.message .debug ("Checking: " ++ name) :: events ++ [verdict], passes)

/-- The run that checks files. -/
def checkThemes (config : Config) (read : ReadFile) (names : List String) : Run :=
  let checks := names.map (checkTheme config read)
  let failed := (checks.filter fun (_, passes) => !passes).length
  { exit := if failed = 0 then 0 else 1
    events := checks.flatMap Prod.fst ++
      [.message .info ("Checked " ++ toString names.length ++ " files, " ++ toString failed ++
        " failed")] }

/-- The file for the output of the theme in file `input`: the one that is asked for, else the one of
the configuration. -/
def Config.destination? (config : Config) (input : String) (target : Target)
    (out : Option String) : Option String :=
  out.or (config.outputPath? input target)

/-- The run that builds the theme in a file.  Its output goes to a file or to the terminal. -/
def buildTheme (config : Config) (read : ReadFile) (name : String) (target : Option Target)
    (out : Option String) : Run :=
  let target := target.getD config.target
  let (events, found) := readTheme config read name
  let events := .message .debug ("Building " ++ name ++ " as " ++ target.name) :: events
  let failure (text : String) : Run := { exit := 1, events := events ++ [.message .error text] }
  match found with
  | .error (.unreadable cause) => failure (unreadableMessage name cause)
  | .error (.refused cause) => failure ("Cannot build " ++ name ++ ": " ++ cause.message)
  | .ok theme =>
    let text := target.render theme
    match config.destination? name target out with
    | some file => { events := events, file := some ⟨file, text⟩ }
    | none => { events := events, stdout := text }

/-! ## Runs -/

namespace Run

/-- The run after its file was written. -/
def wrote (run : Run) (file : TextFile) : Run :=
  { run with
    events := run.events ++ [.message .info ("Wrote " ++ file.name)]
    file := none }

/-- The run after its file could not be written. -/
def refused (run : Run) (failure : WriteError) : Run :=
  { run with
    exit := 1
    events := run.events ++ [.message .error failure.message]
    file := none }

/-- The run that answers without doing anything. -/
def ofReply : Reply → Run
  | .help topic detailed => { stdout := topic.help detailed }
  | .helpOnHelp => { stdout := Topic.helpOnHelp }
  | .version => { stdout := versionText }
  | .misuse cause => { exit := 2, events := [.remark ("error: " ++ cause.message)] }

/-- The run of an invocation with its configuration. -/
def ofCommand (config : Config) (read : ReadFile) : Command → Run
  | .config => { stdout := config.toToml }
  | .check files => checkThemes config read files
  | .build file target out => buildTheme config read file target out

/-- The run of an invocation. -/
def ofInvocation (read : ReadFile) (invocation : Invocation) : Run :=
  match Config.ofInvocation read invocation with
  | .error failure => { exit := 1, events := [.remark ("Error: " ++ failure.message)] }
  | .ok config => ofCommand config read invocation.command

/-- The run for the words of a command line. -/
def ofArguments (read : ReadFile) (words : List String) : Run :=
  match Invocation.ofArguments words with
  | .error reply => ofReply reply
  | .ok invocation => ofInvocation read invocation

/-- What was said to everybody. -/
def log (run : Run) : List (Level × String) := run.events.filterMap Event.message?

end Run

namespace FileTree

/-- The run after its file was written to a tree, and the tree after it. -/
def finish (tree : FileTree) (run : Run) : Run × FileTree :=
  match run.file with
  | none => (run, tree)
  | some file =>
    match tree.write file.name file.text with
    | (after, none) => (run.wrote file, after)
    | (after, some failure) => (run.refused failure, after)

/-- The run of an invocation on a tree of files, and the tree after it. -/
def perform (tree : FileTree) (invocation : Invocation) : Run × FileTree :=
  tree.finish (Run.ofInvocation tree.read invocation)

/-- The run for the words of a command line on a tree of files, and the tree after it. -/
def execute (tree : FileTree) (words : List String) : Run × FileTree :=
  match Invocation.ofArguments words with
  | .error reply => (Run.ofReply reply, tree)
  | .ok invocation => tree.perform invocation

end FileTree

end ColorTheme

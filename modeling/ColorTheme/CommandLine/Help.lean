import ColorTheme.CommandLine.Arguments

/-!
# Help texts

What the program says about itself and its commands: a headline, how it is called, and a row for
each command, argument and option.  In the brief form a row is one line; in the detailed form its
explanation stands below.  Only a topic with more to tell has a detailed form.
-/

set_option autoImplicit false

namespace ColorTheme

/-- The name of the program. -/
def programName : String := "tint-gen"

/-- The version of the program. -/
def programVersion : String := "0.2.0"

/-- The answer to the question for the version. -/
def versionText : String := programName ++ " " ++ programVersion ++ "\n"

/-- A row of a help text: what can be written, what it means, and the meaning of each of its
values. -/
structure HelpRow where
  head : String
  meaning : String
  values : List (String × String) := []

/-- A group of rows under a title. -/
structure HelpSection where
  title : String
  rows : List HelpRow

/-- A text filled up with blanks to a width. -/
def padded (width : Nat) (text : String) : String :=
  text ++ String.ofList (List.replicate (width - text.length) ' ')

namespace HelpRow

/-- The row on one line. -/
def brief (width : Nat) (row : HelpRow) : String :=
  "  " ++ padded width row.head ++ "  " ++ row.meaning ++
    (match row.values with
      | [] => ""
      | values => " [possible values: " ++ ", ".intercalate (values.map Prod.fst) ++ "]") ++ "\n"

/-- How far an explanation below its row is indented. -/
def indent : String := String.ofList (List.replicate 10 ' ')

/-- The row with its explanation below. -/
def detailed (row : HelpRow) : String :=
  "  " ++ row.head ++ "\n" ++ indent ++ row.meaning ++ "\n" ++
    match row.values with
      | [] => ""
      | values => "\n" ++ indent ++ "Possible values:\n" ++
        String.join (values.map fun (name, meaning) =>
          indent ++ "- " ++ name ++ ": " ++ meaning ++ "\n")

end HelpRow

/-- A group of rows with its title. -/
def HelpSection.text (detailed : Bool) (section_ : HelpSection) : String :=
  let width := section_.rows.foldl (fun width row => max width row.head.length) 0
  section_.title ++ ":\n" ++
    if detailed then "\n".intercalate (section_.rows.map HelpRow.detailed)
    else String.join (section_.rows.map (HelpRow.brief width))

/-- What a target gives out. -/
def Target.meaning : Target → String
  | .json => "Nested JSON document"
  | .flat => "One `path = #rrggbb` line per color"

namespace Switch

/-- What an option is for. -/
def meaning (detailed : Bool) : Switch → String
  | configFile => "Configuration file path (defaults to ./tint.toml when present)"
  | allowIncompleteAnsi => "Accept themes whose `ansi` block is missing or incomplete"
  | noColor => "Disable colored diagnostics"
  | verbose => "Verbose output"
  | target => "Output format (overrides `default_target`)"
  | out => "Output file (overrides `out_dir`)"
  | help => if detailed then "Print help (see a summary with '-h')" else "Print help"
  | version => "Print version"

/-- How an option is written. -/
def head (s : Switch) : String :=
  (match s.letter? with
    | some c => String.ofList ['-', c] ++ ", "
    | none => "    ") ++ "--" ++ s.long ++
    if s.takesValue then " <" ++ s.long.map Char.toUpper ++ ">" else ""

/-- The row of an option. -/
def row (detailed : Bool) (s : Switch) : HelpRow :=
  ⟨s.head, s.meaning detailed,
    if s = target then [Target.json, .flat].map fun t => (t.name, t.meaning) else []⟩

end Switch

namespace Topic

/-- What a topic is about. -/
def headline : Topic → String
  | program => "Generate resolved color data from Tint themes"
  | check => "Analyze themes and report diagnostics"
  | build => "Render a theme to a target format"
  | config => "Print the effective configuration"

/-- The words that follow the name of the program. -/
def usage : Topic → String
  | program => "[OPTIONS] <COMMAND>"
  | check => "check [OPTIONS] <FILE>..."
  | build => "build [OPTIONS] <FILE>"
  | config => "config [OPTIONS]"

/-- The options of a topic, in the order of the help text. -/
def switches : Topic → List Switch
  | program => [.configFile, .allowIncompleteAnsi, .noColor, .verbose, .help, .version]
  | build => [.configFile, .target, .allowIncompleteAnsi, .out, .noColor, .verbose, .help]
  | _ => [.configFile, .allowIncompleteAnsi, .noColor, .verbose, .help]

/-- A topic with more to tell than its brief form says. -/
def hasDetails (topic : Topic) : Bool := topic.switches.contains .target

/-- What the command for help is for. -/
def helpMeaning : String := "Print this message or the help of the given subcommand(s)"

/-- The rows of a topic besides its options. -/
def sections : Topic → List HelpSection
  | program =>
    [⟨"Commands", [("check", check), ("build", build), ("config", config)].map
      (fun (name, topic) => ⟨name, topic.headline, []⟩) ++ [⟨helpCommand, helpMeaning, []⟩]⟩]
  | check => [⟨"Arguments", [⟨"<FILE>...", "", []⟩]⟩]
  | build => [⟨"Arguments", [⟨"<FILE>", "", []⟩]⟩]
  | config => []

/-- A help text: headline, usage and the groups of rows. -/
def compose (detailed : Bool) (headline usage : String) (sections : List HelpSection) : String :=
  headline ++ "\n\nUsage: " ++ programName ++ " " ++ usage ++ "\n" ++
    String.join (sections.map fun section_ => "\n" ++ section_.text detailed)

/-- The row for the option that asks for help; the brief form of a topic with details points to
the other one. -/
def helpRow (topic : Topic) (detailed : Bool) : HelpRow :=
  let row := Switch.help.row detailed
  if topic.hasDetails ∧ !detailed then { row with meaning := "Print help (see more with '--help')" }
  else row

/-- The help text of a topic. -/
def help (topic : Topic) (detailed : Bool) : String :=
  let detailed := detailed && topic.hasDetails
  let rows := topic.switches.map fun s =>
    if s = .help then topic.helpRow detailed else s.row detailed
  compose detailed topic.headline topic.usage (topic.sections ++ [⟨"Options", rows⟩])

/-- The help text of the command for help. -/
def helpOnHelp : String :=
  compose false helpMeaning "help [COMMAND]..."
    [⟨"Arguments", [⟨"[COMMAND]...", "Print help for the subcommand(s)", []⟩]⟩]

end Topic

end ColorTheme

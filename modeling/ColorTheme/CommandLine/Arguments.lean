import ColorTheme.Theme.Target

/-!
# Arguments

The words of a command line: a command, the files it works on, and options.  Some options may
stand before the command as well as after it, and then the one after it counts.

* `Invocation.ofArguments` reads the words, or tells what is to be answered instead of a run.
* `Switch.ofLong?_long` : every option is known by its long name.
-/

set_option autoImplicit false

namespace ColorTheme

/-- What can be asked for help about: the program, or one of its commands. -/
inductive Topic
  | program
  | check
  | build
  | config
deriving Repr, DecidableEq, Inhabited

/-- The command with the given name. -/
def Topic.ofCommand? (name : String) : Option Topic :=
  [("check", Topic.check), ("build", .build), ("config", .config)].lookup name

/-- The command that asks for help. -/
def helpCommand : String := "help"

/-- The options. -/
inductive Switch
  | configFile
  | allowIncompleteAnsi
  | noColor
  | verbose
  | target
  | out
  | help
  | version
deriving Repr, DecidableEq, Inhabited

namespace Switch

/-- Every option. -/
def all : List Switch :=
  [configFile, allowIncompleteAnsi, noColor, verbose, target, out, help, version]

/-- The name of an option after two dashes. -/
def long : Switch → String
  | configFile => "config"
  | allowIncompleteAnsi => "allow-incomplete-ansi"
  | noColor => "no-color"
  | verbose => "verbose"
  | target => "target"
  | out => "out"
  | help => "help"
  | version => "version"

/-- The letter of an option after one dash. -/
def letter? : Switch → Option Char
  | configFile => some 'c'
  | verbose => some 'v'
  | target => some 't'
  | out => some 'o'
  | help => some 'h'
  | version => some 'V'
  | _ => none

/-- The option needs a value. -/
def takesValue : Switch → Bool
  | configFile => true
  | target => true
  | out => true
  | _ => false

/-- The option may stand among the words for `topic`. -/
def belongsTo (topic : Topic) : Switch → Bool
  | target => topic == .build
  | out => topic == .build
  | version => topic == .program
  | _ => true

/-- The option with the given long name. -/
def ofLong? (name : List Char) : Option Switch := all.find? (·.long.toList == name)

/-- The option with the given letter. -/
def ofLetter? (c : Char) : Option Switch := all.find? (·.letter? == some c)

theorem ofLong?_long (s : Switch) : ofLong? s.long.toList = some s := by
  cases s <;> decide

end Switch

/-- What is wrong with the words of a command line. -/
inductive Misuse
  | noCommand
  | unknownCommand (word : String)
  | unexpected (word : String)
  | repeated (switch : Switch)
  | missingValue (switch : Switch)
  | needlessValue (switch : Switch)
  | badValue (switch : Switch) (value : String)
  | noFile
deriving Repr, DecidableEq

/-- The wording of a misuse. -/
def Misuse.message : Misuse → String
  | .noCommand => "a command is required"
  | .unknownCommand word => "unrecognized command '" ++ word ++ "'"
  | .unexpected word => "unexpected argument '" ++ word ++ "' found"
  | .repeated s => "the argument '--" ++ s.long ++ "' cannot be used multiple times"
  | .missingValue s => "a value is required for '--" ++ s.long ++ "' but none was supplied"
  | .needlessValue s => "'--" ++ s.long ++ "' takes no value"
  | .badValue s value => "invalid value '" ++ value ++ "' for '--" ++ s.long ++ "'"
  | .noFile => "a file name is required"

/-- What is answered instead of a run. -/
inductive Reply
  | help (topic : Topic) (detailed : Bool)
  | helpOnHelp
  | version
  | misuse (cause : Misuse)
deriving Repr, DecidableEq

/-- What is to be done. -/
inductive Command
  | check (files : List String)
  | build (file : String) (target : Option Target) (out : Option String)
  | config
deriving Repr, DecidableEq

/-- A command and the choices that hold for all commands. -/
structure Invocation where
  command : Command
  configFile : Option String
  allowIncompleteAnsi : Bool
  noColor : Bool
  verbose : Bool
deriving Repr, DecidableEq

/-- Options with their values, which are empty for those that need none. -/
abbrev Given := List (Switch × String)

/-- The words read so far: what they are about, the options before and after the command, and the
files. -/
structure ArgumentScan where
  topic : Topic
  before : Given
  given : Given
  files : List String
deriving Inhabited

namespace ArgumentScan

/-- Nothing is read yet. -/
def start : ArgumentScan := ⟨.program, [], [], []⟩

/-- Takes an option with its value.  Help and version are answered at once. -/
def give (scan : ArgumentScan) (switch : Switch) (value : String) (detailed : Bool) :
    Except Reply ArgumentScan :=
  match switch with
  | .help => .error (.help scan.topic detailed)
  | .version => .error .version
  | switch =>
    if (scan.given.lookup switch).isSome then .error (.misuse (.repeated switch))
    else if switch.takesValue && value.isEmpty then .error (.misuse (.missingValue switch))
    else if switch = .target ∧ Target.ofName? value = none then
      .error (.misuse (.badValue switch value))
    else .ok { scan with given := scan.given ++ [(switch, value)] }

/-- Takes a file. -/
def takeFile (scan : ArgumentScan) (name : String) : Except Reply ArgumentScan :=
  let room := match scan.topic with
    | .check => true
    | .build => scan.files.isEmpty
    | _ => false
  if !room then .error (.misuse (.unexpected name))
  else if name.isEmpty then .error (.misuse .noFile)
  else .ok { scan with files := scan.files ++ [name] }

/-- Takes a word that begins with two dashes, without them.  An option whose value is still to
come is given back. -/
def takeLong (scan : ArgumentScan) (word : List Char) : Except Reply (ArgumentScan × Option Switch) :=
  let (name, value) := word.span (· != '=')
  match (Switch.ofLong? name).filter (·.belongsTo scan.topic) with
  | none => .error (.misuse (.unexpected (String.ofList ('-' :: '-' :: word))))
  | some switch =>
    match switch.takesValue, value with
    | true, [] => .ok (scan, some switch)
    | true, _ :: value => (scan.give switch (String.ofList value) true).map (·, none)
    | false, [] => (scan.give switch "" true).map (·, none)
    | false, _ => .error (.misuse (.needlessValue switch))

/-- Takes a word that begins with one dash, without it.  Its letters are options, and after one
that needs a value the rest of the word is the value. -/
def takeLetters (scan : ArgumentScan) : List Char → Except Reply (ArgumentScan × Option Switch)
  | [] => .ok (scan, none)
  | c :: cs =>
    match (Switch.ofLetter? c).filter (·.belongsTo scan.topic) with
    | none => .error (.misuse (.unexpected (String.ofList ['-', c])))
    | some switch =>
      if switch.takesValue then
        match cs with
        | [] => .ok (scan, some switch)
        | '=' :: value => (scan.give switch (String.ofList value) false).map (·, none)
        | value => (scan.give switch (String.ofList value) false).map (·, none)
      else (scan.give switch "" false).bind fun scan => scan.takeLetters cs

/-- A word that may be the value of the option before it. -/
def isValue (word : String) : Bool := word == "-" || word.toList.head? != some '-'

/-- What the words after the help command ask for. -/
def helpFor : List String → Reply
  | [] => .help .program true
  | [name] =>
    if name = helpCommand then .helpOnHelp
    else
      match Topic.ofCommand? name with
      | some topic => .help topic true
      | none => .misuse (.unknownCommand name)
  | name :: word :: _ => .misuse (.unknownCommand (
      if name = helpCommand ∨ (Topic.ofCommand? name).isSome then word else name))

/-- Takes a word without dashes: the command, or a file. -/
def takeWord (scan : ArgumentScan) (word : String) (rest : List String) : Except Reply ArgumentScan :=
  match scan.topic with
  | .program =>
    if word = helpCommand then .error (helpFor rest)
    else
      match Topic.ofCommand? word with
      | some topic => .ok ⟨topic, scan.given, [], []⟩
      | none => .error (.misuse (.unknownCommand word))
  | _ => scan.takeFile word

/-- Takes a word that stands where no value is awaited.  An option whose value is still to come
is given back. -/
def take (scan : ArgumentScan) (word : String) (rest : List String) : Except Reply (ArgumentScan × Option Switch) :=
  match word.toList with
  | '-' :: '-' :: name => scan.takeLong name
  | '-' :: c :: cs => scan.takeLetters (c :: cs)
  | _ => (scan.takeWord word rest).map (·, none)

/-- Takes the value of an option. -/
def takeValue (scan : ArgumentScan) (switch : Switch) (value : String) : Except Reply ArgumentScan :=
  if isValue value then scan.give switch value false
  else .error (.misuse (.missingValue switch))

/-- Takes all words in order; `awaiting` is an option whose value comes first.  After two dashes
on their own all words are files. -/
def takeAll (scan : ArgumentScan) (awaiting : Option Switch) : List String → Except Reply ArgumentScan
  | [] =>
    match awaiting with
    | none => .ok scan
    | some switch => .error (.misuse (.missingValue switch))
  | word :: rest =>
    match awaiting with
    | some switch => (scan.takeValue switch word).bind fun scan => scan.takeAll none rest
    | none =>
      if word = "--" then rest.foldlM takeFile scan
      else (scan.take word rest).bind fun (scan, awaiting) => scan.takeAll awaiting rest

/-- The value of an option; one after the command counts for more than one before it. -/
def value? (scan : ArgumentScan) (switch : Switch) : Option String :=
  (scan.given.lookup switch).or (scan.before.lookup switch)

/-- The command that the words ask for. -/
def command (scan : ArgumentScan) : Except Reply Command :=
  match scan.topic, scan.files with
  | .program, _ => .error (.misuse .noCommand)
  | .check, [] => .error (.misuse .noFile)
  | .check, files => .ok (.check files)
  | .build, [file] =>
    .ok (.build file ((scan.value? .target).bind Target.ofName?) (scan.value? .out))
  | .build, _ => .error (.misuse .noFile)
  | .config, _ => .ok .config

end ArgumentScan

/-- The invocation that the words of a command line, without the program's own name, ask for. -/
def Invocation.ofArguments (words : List String) : Except Reply Invocation :=
  (ArgumentScan.start.takeAll none words).bind fun scan => scan.command.map fun command =>
    { command := command
      configFile := scan.value? .configFile
      allowIncompleteAnsi := (scan.value? .allowIncompleteAnsi).isSome
      noColor := (scan.value? .noColor).isSome
      verbose := (scan.value? .verbose).isSome }

end ColorTheme

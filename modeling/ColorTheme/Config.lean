import ColorTheme.Files.Name
import ColorTheme.Theme.Target
import ColorTheme.Toml.Reading

/-!
# Configuration

The choices that hold for all themes of a directory: the target, where output goes, and whether
the colors of a terminal are asked for.  They may stand in a TOML file.

* `Config.ofToml?` reads the choices; those that are not there keep their defaults, and entries
  of other names do not count.
* `Config.toToml` writes them.
* `Config.generate` is the output for a source, and `Config.outputPath?` the file that it goes to.
-/

set_option autoImplicit false

namespace ColorTheme

/-- The choices that hold for all themes. -/
structure Config where
  target : Target := .json
  outDir : Option String := none
  strictAnsi : Bool := true
deriving Repr, DecidableEq, Inhabited

namespace Config

/-- The name of the file with the configuration of a directory. -/
def fileName : String := "tint.toml"

/-- The keys of the choices. -/
def targetKey : String := "default_target"

/-- The key of the directory for output. -/
def outDirKey : String := "out_dir"

/-- The key of the strict check. -/
def strictAnsiKey : String := "strict_ansi"

/-- A value without anything in it. -/
def isHollow : Toml → Bool
  | .array [] => true
  | .table _ [] => true
  | .tables [] => true
  | _ => false

/-- The target that a value names, by a text or by the only entry of a table, which is hollow. -/
def targetOf? : Toml → Option Target
  | .text name => Target.ofName? name
  | .table _ [(name, value)] => if isHollow value then Target.ofName? name else none
  | _ => none

/-- The text that a value is. -/
def textOf? : Toml → Option String
  | .text s => some s
  | _ => none

/-- The truth value that a value is. -/
def truthOf? : Toml → Option Bool
  | .truth b => some b
  | _ => none

/-- The configuration in a table; nothing if a choice is of the wrong kind. -/
def ofTable? (entries : Toml.Table) : Option Config :=
  let choice {α : Type} (key : String) (default : α) (read : Toml → Option α) : Option α :=
    match entries.get? key with
    | none => some default
    | some value => read value
  (choice targetKey .json targetOf?).bind fun target =>
    (choice outDirKey none fun value => (textOf? value).map some).bind fun outDir =>
      (choice strictAnsiKey true truthOf?).map fun strictAnsi => ⟨target, outDir, strictAnsi⟩

/-- The configuration in the text of a file. -/
def ofToml? (source : String) : Option Config := (Toml.ofText? source).bind ofTable?

/-- A line that makes a choice. -/
def choiceLine (key : String) (value : List Char) : String :=
  key ++ " = " ++ String.ofList value ++ "\n"

/-- The configuration as the text of a file. -/
def toToml (config : Config) : String :=
  choiceLine targetKey (Toml.writeText config.target.name.toList) ++
    (match config.outDir with
      | some directory => choiceLine outDirKey (Toml.writeText directory.toList)
      | none => "") ++
    choiceLine strictAnsiKey (if config.strictAnsi then "true".toList else "false".toList)

/-- The text of the theme that a source settles, for the given target. -/
def generate (config : Config) (source : String) (target : Target) : Except ThemeError String :=
  (Theme.ofAnalysis config.strictAnsi (.ofSource .standard source)).map fun theme =>
    target.render theme

theorem generate_eq_ok {config : Config} {source : String} {target : Target} {text : String} :
    config.generate source target = .ok text ↔
      ∃ theme, Theme.ofAnalysis config.strictAnsi (.ofSource .standard source) = .ok theme ∧
        target.render theme = text := by
  unfold generate
  cases Theme.ofAnalysis config.strictAnsi (.ofSource .standard source) <;> simp [Except.map]

/-- The file for the output of the theme in file `input`.  Without a directory for output, or
without a name to go by, there is none. -/
def outputPath? (config : Config) (input : String) (target : Target) : Option String :=
  config.outDir.bind fun directory =>
    (fileStem? input).map fun stem => inDirectory directory (stem ++ "." ++ target.extension)

end Config

end ColorTheme

import ColorTheme.CommandLine.Run
import ColorTheme.Proofs.Files.Tree

/-!
# Checking predicts building

* `Config.Yields` : a file can be read, and it gives a text for a target.  Both commands depend on
  this and on nothing else.
* `exit_checkThemes` : files pass the check exactly if each of them gives a text.
* `buildTheme_cases` : a build gives the text of its file to the terminal or to one file, or it
  fails and gives nothing.
* `FileTree.Reliable`, `FileTree.reliable` : so a check tells of each build how it ends, and a run
  that fails gives out nothing and touches no file, for every tree of files and all options.  All
  that it may leave behind are directories on the way to the file that it was to write.
-/

set_option autoImplicit false

namespace ColorTheme

/-- The text is what the file of the given name gives for the target. -/
def Config.Yields (config : Config) (read : ReadFile) (name : String) (target : Target)
    (text : String) : Prop :=
  ∃ source, read name = .ok source ∧ config.generate source target = .ok text

section

variable {config : Config} {read : ReadFile} {name : String} {names : List String}

/-- What comes of a file: a theme from its text, or a refusal. -/
theorem readTheme_eq_ok {theme : Theme} : (readTheme config read name).2 = .ok theme ↔
    ∃ source, read name = .ok source ∧
      Theme.ofAnalysis config.strictAnsi (.ofSource .standard source) = .ok theme := by
  unfold readTheme
  cases read name with
  | error failure => simp
  | ok source =>
    cases h : Theme.ofAnalysis config.strictAnsi (.ofSource .standard source) <;> simp [h]

theorem Config.yields_iff {target : Target} {text : String} :
    config.Yields read name target text ↔
      ∃ theme, (readTheme config read name).2 = .ok theme ∧ target.render theme = text := by
  simp only [Yields, generate_eq_ok, readTheme_eq_ok]
  constructor
  · rintro ⟨source, hread, theme, hsettled, htext⟩
    exact ⟨theme, ⟨source, hread, hsettled⟩, htext⟩
  · rintro ⟨theme, ⟨source, hread, hsettled⟩, htext⟩
    exact ⟨source, hread, theme, hsettled, htext⟩

/-- The target does not matter for whether there is a text. -/
theorem Config.exists_yields_iff (target : Target) :
    (∃ text, config.Yields read name target text) ↔
      ∃ theme, (readTheme config read name).2 = .ok theme := by
  simp only [yields_iff]
  constructor
  · rintro ⟨_, theme, htheme, -⟩
    exact ⟨theme, htheme⟩
  · rintro ⟨theme, htheme⟩
    exact ⟨_, theme, htheme, rfl⟩

/-! ## Checking -/

theorem checkTheme_passes :
    (checkTheme config read name).2 = true ↔ ∃ theme, (readTheme config read name).2 = .ok theme := by
  unfold checkTheme
  rcases readTheme config read name with ⟨events, (failure | cause) | theme⟩ <;> simp

/-- **Files pass exactly if each of them gives a text.** -/
theorem exit_checkThemes (target : String → Target) : (checkThemes config read names).exit = 0 ↔
    ∀ name ∈ names, ∃ text, config.Yields read name (target name) text := by
  have hexit : (checkThemes config read names).exit = 0 ↔
      ∀ name ∈ names, (checkTheme config read name).2 = true := by
    simp [checkThemes, List.filter_eq_nil_iff]
  rw [hexit]
  refine forall₂_congr fun name _ => ?_
  rw [checkTheme_passes, Config.exists_yields_iff]

/-- The order of the files does not matter. -/
theorem exit_checkThemes_of_perm {others : List String} (h : names.Perm others) :
    (checkThemes config read names).exit = (checkThemes config read others).exit := by
  have hfailed := ((h.map (checkTheme config read)).filter fun check => !check.2).length_eq
  unfold checkThemes
  dsimp only
  rw [hfailed]

/-! ## Building -/

/-- The run gives the text to the destination: to a file, or to the terminal. -/
structure Run.Gives (run : Run) (text : String) (destination : Option String) : Prop where
  exit : run.exit = 0
  file : run.file = destination.map fun name => ⟨name, text⟩
  stdout : run.stdout = if destination.isSome then "" else text

/-- The run has failed, and gives nothing. -/
structure Run.Failed (run : Run) : Prop where
  exit : run.exit ≠ 0
  file : run.file = none
  stdout : run.stdout = ""

/-- **A build gives the text of its file to its destination, or it fails.** -/
theorem buildTheme_cases (config : Config) (read : ReadFile) (name : String)
    (asked : Option Target) (out : Option String) :
    (∃ text, config.Yields read name (asked.getD config.target) text ∧
      (buildTheme config read name asked out).Gives text
        (config.destination? name (asked.getD config.target) out)) ∨
    (¬ (∃ text, config.Yields read name (asked.getD config.target) text) ∧
      (buildTheme config read name asked out).Failed) := by
  rw [Config.exists_yields_iff]
  simp only [Config.yields_iff]
  unfold buildTheme
  rcases readTheme config read name with ⟨events, (failure | cause) | theme⟩
  · exact .inr ⟨by simp, by simp, rfl, rfl⟩
  · exact .inr ⟨by simp, by simp, rfl, rfl⟩
  · refine .inl ⟨_, ⟨theme, rfl, rfl⟩, ?_⟩
    dsimp only
    cases config.destination? name (asked.getD config.target) out <;> exact ⟨rfl, rfl, rfl⟩

end

/-! ## On a tree of files -/

namespace FileTree

variable {tree : FileTree} {options : Invocation} {config : Config} {files : List String}

/-- What a check says of the builds of its files, with the same configuration and options. -/
structure Predicts (tree : FileTree) (options : Invocation) (config : Config)
    (files : List String) : Prop where
  /-- If each destination can be written, the check succeeds exactly if all builds do. -/
  exit : ∀ (asked : String → Option Target) (out : String → Option String),
    (∀ file ∈ files, ∀ name,
      config.destination? file ((asked file).getD config.target) (out file) = some name →
        ∀ text, (tree.write name text).2 = none) →
    ((tree.perform { options with command := .check files }).1.exit = 0 ↔ ∀ file ∈ files,
      (tree.perform { options with command := .build file (asked file) (out file) }).1.exit = 0)
  /-- The order of the files does not matter. -/
  order : ∀ others, files.Perm others →
    (tree.perform { options with command := .check files }).1.exit =
      (tree.perform { options with command := .check others }).1.exit
  /-- The check gives out nothing. -/
  stdout : (tree.perform { options with command := .check files }).1.stdout = ""
  unchanged : (tree.perform { options with command := .check files }).2 = tree

/-- The text is given out, whole: to the terminal, with all files as they were, or to the one file
that is its destination. -/
inductive Delivered (tree : FileTree) (text : String) : Option String → String → FileTree → Prop
  | terminal : Delivered tree text none text tree
  | file {name : String} {after : FileTree} (wrote : tree.Wrote name text after) :
      Delivered tree text (some name) "" after

/-- What comes of a build that succeeds: the text of its file is given out. -/
structure Built (tree : FileTree) (options : Invocation) (file : String) (asked : Option Target)
    (out : Option String) (stdout : String) (after : FileTree) : Prop where
  text : ∃ config source text, Config.ofInvocation tree.read options = .ok config ∧
    tree.read file = .ok source ∧ config.generate source (asked.getD config.target) = .ok text ∧
    tree.Delivered text (config.destination? file (asked.getD config.target) out) stdout after

/-- The file that a run is to write, if there is one. -/
def destination? (tree : FileTree) (invocation : Invocation) : Option String :=
  match Config.ofInvocation tree.read invocation, invocation.command with
  | .ok config, .build file asked out => config.destination? file (asked.getD config.target) out
  | _, _ => none

/-- **What can be relied on**, for all commands with the same options. -/
structure Reliable (tree : FileTree) (options : Invocation) : Prop where
  /-- Where there is a configuration, a check tells of each build how it ends. -/
  predicts : ∀ config, Config.ofInvocation tree.read options = .ok config →
    ∀ files, tree.Predicts options config files
  /-- A run that fails gives out nothing, and leaves all files as they were.  There may be new
  directories on the way to the file that it was to write. -/
  failed : ∀ command, (tree.perform { options with command := command }).1.exit ≠ 0 →
    (tree.perform { options with command := command }).1.stdout = "" ∧
      tree.Spared (tree.destination? { options with command := command })
        (tree.perform { options with command := command }).2
  /-- So it is for all words of a command line, whatever they ask for. -/
  refused : ∀ words, (tree.execute words).1.exit ≠ 0 → (tree.execute words).1.stdout = "" ∧
    tree.Spared ((Invocation.ofArguments words).toOption.bind tree.destination?)
      (tree.execute words).2
  /-- A build that succeeds gives out the text of its file. -/
  built : ∀ file asked out,
    (tree.perform { options with command := .build file asked out }).1.exit = 0 →
    tree.Built options file asked out
      (tree.perform { options with command := .build file asked out }).1.stdout
      (tree.perform { options with command := .build file asked out }).2

theorem perform_of_config (h : Config.ofInvocation tree.read options = .ok config)
    (command : Command) : tree.perform { options with command := command } =
      tree.finish (Run.ofCommand config tree.read command) := by
  have hconfig : Config.ofInvocation tree.read { options with command := command } = .ok config := h
  rw [perform, Run.ofInvocation, hconfig]

theorem destination?_build (h : Config.ofInvocation tree.read options = .ok config)
    (file : String) (asked : Option Target) (out : Option String) :
    tree.destination? { options with command := .build file asked out } =
      config.destination? file (asked.getD config.target) out := by
  have hconfig : Config.ofInvocation tree.read
      { options with command := .build file asked out } = .ok config := h
  rw [destination?, hconfig]

theorem perform_check (h : Config.ofInvocation tree.read options = .ok config)
    (files : List String) : tree.perform { options with command := .check files } =
      (checkThemes config tree.read files, tree) :=
  perform_of_config h (.check files)

/-- A run without a file leaves the tree alone. -/
theorem finish_of_none {run : Run} (h : run.file = none) : tree.finish run = (run, tree) := by
  rw [finish, h]

/-- A run that gives a text ends well if the text can be written, and else touches no file. -/
theorem finish_of_gives {run : Run} {text : String} {destination : Option String}
    (h : run.Gives text destination) :
    ((tree.finish run).1.exit = 0 ∧
      tree.Delivered text destination (tree.finish run).1.stdout (tree.finish run).2) ∨
    (∃ name, destination = some name ∧ (tree.write name text).2 ≠ none) ∧
      (tree.finish run).1.exit ≠ 0 ∧ (tree.finish run).1.stdout = "" ∧
      tree.Spared destination (tree.finish run).2 := by
  have hfile := h.file
  have hstdout := h.stdout
  cases destination with
  | none =>
    rw [finish_of_none hfile]
    refine .inl ⟨h.exit, ?_⟩
    rw [show run.stdout = text from hstdout]
    exact .terminal
  | some name =>
    rw [finish, hfile]
    dsimp only [Option.map]
    rcases tree.write_cases name text with
      ⟨after, hwrite, hwrote⟩ | ⟨after, failure, hwrite, hspared⟩
    · rw [hwrite]
      refine .inl ⟨h.exit, ?_⟩
      rw [show (run.wrote ⟨name, text⟩).stdout = "" from hstdout]
      exact .file hwrote
    · rw [hwrite]
      exact .inr ⟨⟨name, rfl, by simp [hwrite]⟩, by simp [Run.refused], hstdout, hspared⟩

/-- Without a configuration there is no run. -/
theorem perform_of_configError {cause : ConfigError}
    (h : Config.ofInvocation tree.read options = .error cause) (command : Command) :
    tree.perform { options with command := command } =
      ({ exit := 1, events := [.remark ("Error: " ++ cause.message)] }, tree) := by
  have hconfig : Config.ofInvocation tree.read { options with command := command } =
      .error cause := h
  rw [perform, Run.ofInvocation, hconfig]
  rfl

/-- **How a build ends.** -/
theorem build_cases (h : Config.ofInvocation tree.read options = .ok config) (file : String)
    (asked : Option Target) (out : Option String) :
    (∃ text, config.Yields tree.read file (asked.getD config.target) text ∧
      (buildTheme config tree.read file asked out).Gives text
        (config.destination? file (asked.getD config.target) out)) ∧
      tree.perform { options with command := .build file asked out } =
        tree.finish (buildTheme config tree.read file asked out) ∨
    ¬ (∃ text, config.Yields tree.read file (asked.getD config.target) text) ∧
      (tree.perform { options with command := .build file asked out }).1.Failed ∧
      (tree.perform { options with command := .build file asked out }).2 = tree := by
  have hperform : tree.perform { options with command := .build file asked out } =
      tree.finish (buildTheme config tree.read file asked out) := perform_of_config h _
  rcases buildTheme_cases config tree.read file asked out with hgives | ⟨hnone, hfailed⟩
  · exact .inl ⟨hgives, hperform⟩
  · rw [hperform, finish_of_none hfailed.file]
    exact .inr ⟨hnone, hfailed, rfl⟩

/-- A build whose destination can be written succeeds exactly if its file gives a text. -/
theorem exit_build (h : Config.ofInvocation tree.read options = .ok config) {file : String}
    {asked : Option Target} {out : Option String}
    (hwritable : ∀ name, config.destination? file (asked.getD config.target) out = some name →
      ∀ text, (tree.write name text).2 = none) :
    (tree.perform { options with command := .build file asked out }).1.exit = 0 ↔
      ∃ text, config.Yields tree.read file (asked.getD config.target) text := by
  rcases build_cases h file asked out with ⟨⟨text, hyields, hgives⟩, hperform⟩ |
    ⟨hnone, hfailed, -⟩
  · rw [hperform]
    rcases finish_of_gives hgives with ⟨hexit, -⟩ | ⟨⟨name, hname, hrefused⟩, -⟩
    · exact ⟨fun _ => ⟨text, hyields⟩, fun _ => hexit⟩
    · exact absurd (hwritable name hname text) hrefused
  · exact ⟨fun hexit => absurd hexit hfailed.exit, fun hsome => absurd hsome hnone⟩

theorem predicts_of_config (h : Config.ofInvocation tree.read options = .ok config)
    (files : List String) : tree.Predicts options config files where
  exit asked out hwritable := by
    rw [perform_check h, exit_checkThemes fun file => (asked file).getD config.target]
    exact forall₂_congr fun file hfile => (exit_build h (hwritable file hfile)).symm
  order others hperm := by
    rw [perform_check h, perform_check h]
    exact exit_checkThemes_of_perm hperm
  stdout := by rw [perform_check h]; rfl
  unchanged := by rw [perform_check h]

/-- A run that fails gives out nothing, and touches no file. -/
theorem silent_of_failed (tree : FileTree) (options : Invocation) (command : Command)
    (hexit : (tree.perform { options with command := command }).1.exit ≠ 0) :
    (tree.perform { options with command := command }).1.stdout = "" ∧
      tree.Spared (tree.destination? { options with command := command })
        (tree.perform { options with command := command }).2 := by
  cases h : Config.ofInvocation tree.read options with
  | error cause =>
    rw [perform_of_configError h]
    exact ⟨rfl, .refl tree _⟩
  | ok config =>
    cases command with
    | check files =>
      rw [perform_check h]
      exact ⟨rfl, .refl tree _⟩
    | config =>
      rw [perform_of_config h] at hexit
      exact absurd rfl hexit
    | build file asked out =>
      rw [destination?_build h]
      rcases build_cases h file asked out with ⟨⟨text, -, hgives⟩, hperform⟩ | ⟨-, hfailed, hafter⟩
      · rw [hperform] at hexit ⊢
        rcases finish_of_gives hgives with ⟨hzero, -⟩ | ⟨-, -, hstdout, hspared⟩
        · exact absurd hzero hexit
        · exact ⟨hstdout, hspared⟩
      · rw [hafter]
        exact ⟨hfailed.stdout, .refl tree _⟩

theorem silent_of_refused (tree : FileTree) (words : List String)
    (hexit : (tree.execute words).1.exit ≠ 0) : (tree.execute words).1.stdout = "" ∧
      tree.Spared ((Invocation.ofArguments words).toOption.bind tree.destination?)
        (tree.execute words).2 := by
  unfold execute at hexit ⊢
  cases h : Invocation.ofArguments words with
  | error reply =>
    rw [h] at hexit
    cases reply with
    | misuse cause => exact ⟨rfl, .refl tree _⟩
    | help topic detailed => exact absurd rfl hexit
    | helpOnHelp => exact absurd rfl hexit
    | version => exact absurd rfl hexit
  | ok invocation =>
    rw [h] at hexit
    exact silent_of_failed tree invocation invocation.command hexit

theorem built_of_exit (tree : FileTree) (options : Invocation) (file : String)
    (asked : Option Target) (out : Option String)
    (hexit : (tree.perform { options with command := .build file asked out }).1.exit = 0) :
    tree.Built options file asked out
      (tree.perform { options with command := .build file asked out }).1.stdout
      (tree.perform { options with command := .build file asked out }).2 := by
  cases h : Config.ofInvocation tree.read options with
  | error cause =>
    rw [perform_of_configError h] at hexit
    cases hexit
  | ok config =>
    rcases build_cases h file asked out with ⟨⟨text, ⟨source, hread, htext⟩, hgives⟩, hperform⟩ |
      ⟨-, hfailed, -⟩
    · rw [hperform] at hexit ⊢
      rcases finish_of_gives hgives with ⟨-, hgiven⟩ | ⟨-, hfailed, -⟩
      · exact ⟨config, source, text, h, hread, htext, hgiven⟩
      · exact absurd hexit hfailed
    · exact absurd hexit hfailed.exit

/-- **Checking predicts building, and a failed run gives out nothing and touches no file**, for every
tree of files and all options. -/
theorem reliable (tree : FileTree) (options : Invocation) : tree.Reliable options where
  predicts _ h files := predicts_of_config h files
  failed := silent_of_failed tree options
  refused := silent_of_refused tree
  built := built_of_exit tree options

/-- A directory with a theme and with a file that is none. -/
def pairTree : FileTree :=
  .ofFiles [("pine.tint", "palette \x7b\n  pine = #31748f\n\x7d\n"),
    ("broken.tint", "palette \x7b\n  pine = #31748\n\x7d\n")]

/-- The choice not to ask for the colors of a terminal. -/
def lenient : Invocation := ⟨.config, none, true, false, false⟩

theorem reliable_pairTree :
    pairTree.Reliable lenient ∧
      (Config.ofInvocation pairTree.read lenient).toOption = some ⟨.json, none, false⟩ ∧
      (pairTree.perform { lenient with command := .check ["pine.tint"] }).1.exit = 0 ∧
      (pairTree.perform { lenient with command := .check ["pine.tint", "broken.tint"] }).1.exit = 1 ∧
      ((pairTree.perform { lenient with
        command := .build "pine.tint" (some .flat) (some "out/pine.txt") }).2.read
          "out/pine.txt").toOption = some "palette.pine = #31748f\n" ∧
      (pairTree.perform { lenient with
        command := .build "pine.tint" none (some "out/pine/") }).1.exit = 1 ∧
      (pairTree.perform { lenient with
        command := .build "pine.tint" none (some "out/pine/") }).2.directories = [["out"]] :=
  ⟨reliable pairTree lenient, by decide +kernel, by decide +kernel, by decide +kernel,
    by decide +kernel, by decide +kernel, by decide +kernel⟩

end FileTree

end ColorTheme

import ColorTheme.Entries
import ColorTheme.Files.Name

/-!
# Files

A tree of files, and what comes of reading and writing by file names.  Every place is known by the
components that lead to it from the working directory; those above begin with two dots.

* `nameFlaw?` is what is wrong with a name before any place is looked for.
* `FileTree.read` is the text of a file, or why there is none.
* `FileTree.write` makes the directories that a file needs, and the file.  The directories that are
  made before something fails stay.
* `read_eq_ok_iff` : exactly the texts of the tree can be read.
-/

set_option autoImplicit false

namespace ColorTheme

/-- Why a file cannot be read or written. -/
inductive FileError
  | notFound
  | alreadyThere
  | notADirectory
  | isADirectory
  | nameTooLong
  | nulInName
  | notText
deriving Repr, DecidableEq, Inhabited

/-- The wording of a failure. -/
def FileError.message : FileError → String
  | .notFound => "No such file or directory (os error 2)"
  | .alreadyThere => "File exists (os error 17)"
  | .notADirectory => "Not a directory (os error 20)"
  | .isADirectory => "Is a directory (os error 21)"
  | .nameTooLong => "File name too long (os error 36)"
  | .nulInName => "file name contained an unexpected NUL byte"
  | .notText => "stream did not contain valid UTF-8"

/-- Why a text was not written: its directory could not be made, or the file itself. -/
inductive WriteError
  | directory (name : String) (failure : FileError)
  | file (name : String) (failure : FileError)
deriving Repr, DecidableEq

/-- The wording of a failure to write. -/
def WriteError.message : WriteError → String
  | directory name failure => "Failed to create directory: " ++ name ++ ": " ++ failure.message
  | file name failure => "Failed to write file: " ++ name ++ ": " ++ failure.message

/-- The bytes that a component may have. -/
def componentLimit : Nat := 255

/-- The bytes that a whole name may have. -/
def nameLimit : Nat := 4095

/-- Why no place can have the name. -/
def nameFlaw? (name : String) : Option FileError :=
  if name.toList.contains '\x00' then some .nulInName
  else if nameLimit < name.utf8ByteSize then some .nameTooLong
  else none

/-- The components that lead to a place. -/
abbrev Place := List String

/-- The root of all directories. -/
def rootPlace : Place := ["/"]

/-- The place above the working directory, or is it itself. -/
def Place.isAbove (place : Place) : Bool := place.all (· == "..") || place == rootPlace

/-- The directory of a place. -/
def Place.up (place : Place) : Place :=
  if place == rootPlace then place
  else if place.isAbove then place ++ [".."]
  else place.dropLast

/-- Files, each with its text if its bytes are one, and directories that were made. -/
structure FileTree where
  files : Entries Place (Option String)
  directories : List Place
deriving Inhabited

namespace FileTree

/-- The tree with the given text files; each name is a place. -/
def ofFiles (files : List (String × String)) : FileTree :=
  ⟨files.map fun (name, text) => (components name, some text), []⟩

/-- A directory is at the place: the working directory, one above it, or one that was made or has
a file in it. -/
def isDirectory (tree : FileTree) (place : Place) : Bool :=
  place.isAbove || tree.directories.contains place ||
    tree.files.any fun (file, _) => place.isPrefixOf file && place != file

/-- The place that is reached from `here` by the components of a name.  Every component needs a
directory to start from, and a name that is not too long. -/
def walk (tree : FileTree) (here : Place) : List String → Except FileError Place
  | [] => .ok here
  | component :: rest =>
    if tree.isDirectory here then
      if isIdle component then tree.walk here rest
      else if component = ".." then tree.walk here.up rest
      else if componentLimit < component.utf8ByteSize then .error .nameTooLong
      else tree.walk (here ++ [component]) rest
    else if (tree.files.get? here).isSome then .error .notADirectory
    else .error .notFound

/-- The place where a name starts, and the components to follow from there. -/
def startOf (name : String) : Place × List String :=
  match components name with
  | "" :: rest => (rootPlace, rest)
  | all => ([], all)

/-- The text of the file with the given name. -/
def read (tree : FileTree) (name : String) : Except FileError String :=
  match nameFlaw? name with
  | some failure => .error failure
  | none =>
    let (start, path) := startOf name
    match tree.walk start path with
    | .error failure => .error failure
    | .ok place =>
      if tree.isDirectory place then .error .isADirectory
      else
        match tree.files.get? place with
        | some (some text) => .ok text
        | some none => .error .notText
        | none => .error .notFound

theorem read_eq_ok_iff {tree : FileTree} {name text : String} :
    tree.read name = .ok text ↔
      nameFlaw? name = none ∧ ∃ place, tree.walk (startOf name).1 (startOf name).2 = .ok place ∧
        tree.isDirectory place = false ∧ tree.files.get? place = some (some text) := by
  simp only [read]
  cases nameFlaw? name with
  | some failure => simp
  | none =>
    cases tree.walk (startOf name).1 (startOf name).2 with
    | error failure => simp
    | ok place =>
      cases hd : tree.isDirectory place <;> rcases ht : tree.files.get? place with - | - | text <;>
        simp [hd, ht]

/-- The tree with the directories to which the components lead from `here`, and why not all of them
could be made. -/
def makeDirectories (tree : FileTree) (here : Place) : List String → FileTree × Option FileError
  | [] => (tree, none)
  | component :: rest =>
    if isIdle component then tree.makeDirectories here rest
    else if component = ".." then tree.makeDirectories here.up rest
    else
      let next := here ++ [component]
      if tree.isDirectory next then tree.makeDirectories next rest
      else if (tree.files.get? next).isSome then
        (tree, some (if rest.isEmpty then .alreadyThere else .notADirectory))
      else if componentLimit < component.utf8ByteSize then (tree, some .nameTooLong)
      else { tree with directories := tree.directories ++ [next] }.makeDirectories next rest

/-- The tree with the directory of the given name, and why it could not be made. -/
def makeNamed (tree : FileTree) (name : String) : FileTree × Option FileError :=
  match nameFlaw? name with
  | some failure => (tree, some failure)
  | none =>
    let (start, path) := startOf name
    tree.makeDirectories start path

/-- The tree with `text` in the file that the components lead to; directories are not made. -/
def put (tree : FileTree) (name text : String) : Except FileError FileTree :=
  let (start, path) := startOf name
  let named := path.reverse.dropWhile (·.isEmpty)
  match nameFlaw? name, named with
  | some failure, _ => .error failure
  | none, [] => .error .isADirectory
  | none, last :: above =>
    match tree.walk start above.reverse with
    | .error failure => .error failure
    | .ok here =>
      let place := here ++ [last]
      if !tree.isDirectory here then
        .error (if (tree.files.get? here).isSome then .notADirectory else .notFound)
      else if last = "." ∨ last = ".." ∨ named.length < path.length ∨ tree.isDirectory place then
        .error .isADirectory
      else if componentLimit < last.utf8ByteSize then .error .nameTooLong
      else .ok { tree with files := tree.files.put place (some text) }

/-- The tree with the directory that the file of the given name needs, and why it could not be
made. -/
def makeParent (tree : FileTree) (name : String) : FileTree × Option WriteError :=
  let parent := (parentOf? name).getD ""
  if parent.isEmpty then (tree, none)
  else
    let (made, failure) := tree.makeNamed parent
    (made, failure.map (.directory parent))

/-- The tree with `text` in the file of the given name and with the directories that it needs, and
why the file could not be written. -/
def write (tree : FileTree) (name text : String) : FileTree × Option WriteError :=
  match tree.makeParent name with
  | (made, some failure) => (made, some failure)
  | (made, none) =>
    match made.put name text with
    | .ok after => (after, none)
    | .error failure => (made, some (.file name failure))

/-- The text files below the working directory that are not in `before`, or hold something else
there. -/
def changedSince (tree before : FileTree) : List (String × String) :=
  tree.files.filterMap fun (place, held) =>
    if before.files.get? place = some held ∨ place.head? = some ".." ∨
        place.head? = rootPlace.head? then none
    else held.map fun text => ("/".intercalate place, text)

end FileTree

end ColorTheme

/-!
# File names

A file name is a text whose components are separated by slashes.  Empty components and single
dots lead nowhere, two dots lead to the directory above.

* `fileStem?` is the last component without what follows its last dot.
* `parentOf?` is the name of the directory that a file stands in.
* `intercalate_components` : the components, with slashes between them, are the name.
-/

set_option autoImplicit false

namespace ColorTheme

/-- The texts between the slashes, of which there is always one more than slashes. -/
def componentsOf : List Char → List (List Char)
  | [] => [[]]
  | '/' :: cs => [] :: componentsOf cs
  | c :: cs =>
    match componentsOf cs with
    | [] => [[c]]
    | component :: rest => (c :: component) :: rest

/-- The components of a file name. -/
def components (name : String) : List String := (componentsOf name.toList).map String.ofList

theorem componentsOf_ne_nil (cs : List Char) : componentsOf cs ≠ [] := by
  fun_induction componentsOf cs <;> simp

theorem intercalate_components (cs : List Char) : ['/'].intercalate (componentsOf cs) = cs := by
  fun_induction componentsOf cs with
  | case1 => rfl
  | case2 cs ih =>
    match h : componentsOf cs with
    | [] => exact absurd h (componentsOf_ne_nil cs)
    | component :: rest => rw [h] at ih; simp [← ih, List.intercalate]
  | case3 c cs _ h _ => exact absurd h (componentsOf_ne_nil cs)
  | case4 c cs _ component rest h ih =>
    rw [h] at ih
    cases rest <;> simp [← ih, List.intercalate]

/-- A component that leads nowhere. -/
def isIdle (component : String) : Bool := component == "" || component == "."

/-- The components without the idle ones at the end. -/
def dropIdle (path : List String) : List String := (path.reverse.dropWhile isIdle).reverse

/-- The component that names the file itself. -/
def fileName? (name : String) : Option String :=
  match (dropIdle (components name)).getLast? with
  | some ".." => none
  | last => last

/-- The part of a component before its last dot; a dot at the very beginning counts as a letter. -/
def stemOf (component : String) : String :=
  let cs := component.toList
  let upToDot := cs.reverse.dropWhile (· != '.')
  match upToDot.drop 1 with
  | [] => component
  | before => String.ofList before.reverse

/-- The file's own name without its extension. -/
def fileStem? (name : String) : Option String := (fileName? name).map stemOf

/-- The name of a file in a directory. -/
def inDirectory (directory file : String) : String :=
  if directory.isEmpty || directory.toList.getLast? == some '/' then directory ++ file
  else directory ++ "/" ++ file

/-- The name of the directory above, empty for the current one. -/
def parentOf? (name : String) : Option String :=
  match components name with
  | [] => none
  | first :: rest =>
    match dropIdle rest with
    | [] => if first.isEmpty then none else some ""
    | below =>
      match dropIdle below.dropLast with
      | [] => some (if first.isEmpty then "/" else first)
      | above => some ("/".intercalate (first :: above))

end ColorTheme

import ColorTheme.Files.Tree
import ColorTheme.Proofs.Entries

/-!
# What writing does to a tree of files

* `Place.Passes` : the places on the way along the components of a name.
* `FileTree.files_makeDirectories`, `FileTree.grew_makeDirectories` : making directories touches no
  file, and all that are new are on the way.
* `FileTree.Admits`, `FileTree.admits_of_put` : a text that is put goes to one place, in a directory
  to which its name leads.
* `FileTree.Wrote`, `FileTree.write_cases` : a text that is written is in one file, from which it is
  read again, and no other file is touched; none is if it cannot be written.  Directories are made
  on the way to the file and nowhere else.
-/

set_option autoImplicit false

namespace ColorTheme

/-- The place to which components lead by their names alone. -/
def Place.follow (here : Place) : List String → Place
  | [] => here
  | component :: rest =>
    if isIdle component then here.follow rest
    else if component = ".." then here.up.follow rest
    else Place.follow (here ++ [component]) rest

/-- The place is one of those that are passed on the way from `here`. -/
def Place.Passes (here : Place) (path : List String) (place : Place) : Prop :=
  ∃ front, front <+: path ∧ place = here.follow front

section

variable {here next place : Place} {component : String} {path : List String}

theorem Place.follow_idle (h : isIdle component = true) (path : List String) :
    here.follow (component :: path) = here.follow path := if_pos h

theorem Place.follow_up (path : List String) :
    here.follow (".." :: path) = here.up.follow path := rfl

theorem Place.follow_name (hidle : ¬ isIdle component = true) (hup : component ≠ "..")
    (path : List String) :
    here.follow (component :: path) = Place.follow (here ++ [component]) path := by
  rw [follow, if_neg hidle, if_neg hup]

/-- The way goes on from the place behind the first component. -/
theorem Place.Passes.cons (hfollow : ∀ path, here.follow (component :: path) = next.follow path)
    (h : next.Passes path place) : here.Passes (component :: path) place := by
  obtain ⟨front, hfront, rfl⟩ := h
  exact ⟨component :: front, List.cons_prefix_cons.2 ⟨rfl, hfront⟩, (hfollow front).symm⟩

end

namespace FileTree

variable {tree other made after : FileTree} {here place : Place} {path : List String}
  {name text : String}

/-! ## Directories -/

theorem files_makeDirectories (tree : FileTree) (here : Place) (path : List String) :
    (tree.makeDirectories here path).1.files = tree.files := by
  induction path generalizing tree here with
  | nil => rfl
  | cons component rest ih =>
    rw [makeDirectories]
    split
    · exact ih tree here
    · split
      · exact ih tree here.up
      · dsimp only
        split
        · exact ih tree _
        · split
          · rfl
          · split
            · rfl
            · exact ih _ _

theorem files_makeNamed (tree : FileTree) (name : String) :
    (tree.makeNamed name).1.files = tree.files := by
  unfold makeNamed
  split
  · rfl
  · exact files_makeDirectories tree _ _

/-- The directories are those before, and new ones at allowed places. -/
def Grew (tree : FileTree) (allowed : Place → Prop) (after : FileTree) : Prop :=
  ∃ made, after.directories = tree.directories ++ made ∧ ∀ place ∈ made, allowed place

namespace Grew

variable {allowed others : Place → Prop}

theorem refl (tree : FileTree) (allowed : Place → Prop) : tree.Grew allowed tree :=
  ⟨[], by simp, by simp⟩

theorem imp (h : tree.Grew allowed after) (himp : ∀ place, allowed place → others place) :
    tree.Grew others after := by
  obtain ⟨made, hmade, hallowed⟩ := h
  exact ⟨made, hmade, fun place hplace => himp place (hallowed place hplace)⟩

end Grew

/-- **The directories that are made are on the way.** -/
theorem grew_makeDirectories (tree : FileTree) (here : Place) (path : List String) :
    tree.Grew (here.Passes path) (tree.makeDirectories here path).1 := by
  induction path generalizing tree here with
  | nil => exact .refl tree _
  | cons component rest ih =>
    rw [makeDirectories]
    split
    · rename_i hidle
      exact (ih tree here).imp fun _ => .cons (Place.follow_idle hidle)
    · rename_i hidle
      split
      · rename_i hup
        subst hup
        exact (ih tree here.up).imp fun _ => .cons Place.follow_up
      · rename_i hup
        have hfollow (path : List String) : here.follow (component :: path) =
            Place.follow (here ++ [component]) path := Place.follow_name hidle hup path
        dsimp only
        split
        · exact (ih tree _).imp fun _ => .cons hfollow
        · split
          · exact .refl tree _
          · split
            · exact .refl tree _
            · -- the directory behind this component is made, and then those on the rest of the way
              obtain ⟨made, hmade, hpassed⟩ :=
                ih { tree with directories := tree.directories ++ [here ++ [component]] } _
              refine ⟨(here ++ [component]) :: made, hmade.trans (List.append_assoc _ _ _), ?_⟩
              rw [List.forall_mem_cons]
              exact ⟨.cons hfollow ⟨[], List.nil_prefix, rfl⟩,
                fun place hplace => .cons hfollow (hpassed place hplace)⟩

theorem grew_makeNamed (tree : FileTree) (name : String) :
    tree.Grew ((startOf name).1.Passes (startOf name).2) (tree.makeNamed name).1 := by
  unfold makeNamed
  split
  · exact .refl tree _
  · exact grew_makeDirectories tree _ _

theorem isDirectory_iff : tree.isDirectory place = true ↔
    place.isAbove = true ∨ place ∈ tree.directories ∨
      ∃ file ∈ tree.files.keys, place <+: file ∧ place ≠ file := by
  simp [isDirectory, Entries.keys, or_assoc]

/-! ## Ways through a tree -/

theorem walk_append (tree : FileTree) (here : Place) (path behind : List String) :
    tree.walk here (path ++ behind) =
      (tree.walk here path).bind fun place => tree.walk place behind := by
  induction path generalizing here with
  | nil => rfl
  | cons component rest ih =>
    rw [List.cons_append, walk, walk]
    split
    · split
      · exact ih here
      · split
        · exact ih here.up
        · split
          · rfl
          · exact ih _
    · split <;> rfl

/-- Where there are more directories, all ways are still open. -/
theorem walk_mono (h : ∀ place, tree.isDirectory place = true → other.isDirectory place = true)
    (hwalk : tree.walk here path = .ok place) : other.walk here path = .ok place := by
  induction path generalizing here with
  | nil => exact hwalk
  | cons component rest ih =>
    rw [walk] at hwalk ⊢
    split at hwalk
    · rename_i hhere
      rw [if_pos (h here hhere)]
      split at hwalk
      · rename_i hidle
        rw [if_pos hidle]
        exact ih hwalk
      · rename_i hidle
        rw [if_neg hidle]
        split at hwalk
        · rename_i hup
          rw [if_pos hup]
          exact ih hwalk
        · rename_i hup
          rw [if_neg hup]
          split at hwalk
          · cases hwalk
          · rename_i hshort
            rw [if_neg hshort]
            exact ih hwalk
    · split at hwalk <;> cases hwalk

/-! ## Putting a text -/

/-- The tree with another text at a place. -/
def withText (tree : FileTree) (place : Place) (text : String) : FileTree :=
  { tree with files := tree.files.put place (some text) }

/-- A new file brings in the directories on the way to it, and no others. -/
theorem isDirectory_withText {at' : Place} : (tree.withText place text).isDirectory at' = true ↔
    tree.isDirectory at' = true ∨ (at' <+: place ∧ at' ≠ place) := by
  have hkeys : ∀ file, file ∈ (tree.withText place text).files.keys ↔
      file ∈ tree.files.keys ∨ file = place := fun file => Entries.mem_keys_alter
  rw [isDirectory_iff, isDirectory_iff]
  simp only [hkeys, or_and_right, exists_or, exists_eq_left, or_assoc]
  rfl

/-- The name leads to a directory, and its last component to a place in it where a file can be. -/
structure Admits (tree : FileTree) (name : String) (here : Place) (last : String) : Prop where
  flawless : nameFlaw? name = none
  path : ∃ above, (startOf name).2 = above ++ [last] ∧ tree.walk (startOf name).1 above = .ok here
  directory : tree.isDirectory here = true
  notIdle : isIdle last = false
  notUp : last ≠ ".."
  short : ¬ componentLimit < last.utf8ByteSize
  free : tree.isDirectory (here ++ [last]) = false

/-- A list from which nothing is dropped is the list itself. -/
theorem dropWhile_eq_of_length {α : Type} {p : α → Bool} {xs : List α}
    (h : ¬ (xs.dropWhile p).length < xs.length) : xs.dropWhile p = xs :=
  (List.dropWhile_suffix p).eq_of_length_le (Nat.le_of_not_lt h)

/-- **A text that is put goes to one place.** -/
theorem admits_of_put (h : tree.put name text = .ok after) :
    ∃ here last, tree.Admits name here last ∧ after = tree.withText (here ++ [last]) text := by
  unfold put at h
  dsimp only at h
  split at h
  · cases h
  · cases h
  · rename_i last above hflaw hnamed
    split at h
    · cases h
    · rename_i here hwalk
      split at h
      · cases h
      · rename_i hhere
        split at h
        · cases h
        · rename_i hlast
          simp only [not_or] at hlast
          obtain ⟨hdot, hup, hlength, hfree⟩ := hlast
          split at h
          · cases h
          · rename_i hshort
            cases h
            -- no component is dropped, so the name has no slash at its end
            have hpath : (startOf name).2.reverse = last :: above := by
              have hlong : ¬ ((startOf name).2.reverse.dropWhile (·.isEmpty)).length <
                  (startOf name).2.reverse.length := by
                rwa [List.length_reverse]
              rw [← hnamed, dropWhile_eq_of_length hlong]
            have hnonempty : last.isEmpty = false := by
              have := List.head?_dropWhile_not String.isEmpty (startOf name).2.reverse
              simpa [hnamed] using this
            refine ⟨here, last, ⟨hflaw, ⟨above.reverse, ?_, hwalk⟩, ?_, ?_, hup, hshort, ?_⟩, rfl⟩
            · rw [← List.reverse_reverse (startOf name).2, hpath, List.reverse_cons]
            · simpa using hhere
            · simpa [isIdle, hdot] using hnonempty
            · simpa using hfree

/-- **What is put is read again**, by the same name. -/
theorem read_withText {last : String} (h : tree.Admits name here last) :
    (tree.withText (here ++ [last]) text).read name = .ok text := by
  obtain ⟨above, hpath, hwalk⟩ := h.path
  have hmore : ∀ place, tree.isDirectory place = true →
      (tree.withText (here ++ [last]) text).isDirectory place = true :=
    fun place hplace => isDirectory_withText.2 (.inl hplace)
  refine read_eq_ok_iff.2 ⟨h.flawless, here ++ [last], ?_, ?_, ?_⟩
  · rw [hpath, walk_append, walk_mono hmore hwalk]
    show walk _ here [last] = _
    rw [walk, if_pos (hmore here h.directory), if_neg (by simp [h.notIdle]), if_neg h.notUp,
      if_neg h.short]
    rfl
  · refine eq_false_of_ne_true fun hdirectory => ?_
    rcases isDirectory_withText.1 hdirectory with hold | ⟨-, hne⟩
    · rw [h.free] at hold
      cases hold
    · exact hne rfl
  · exact Entries.get?_alter_self _ _ _

/-! ## Writing -/

/-- The place is on the way to the directory that the file of the given name needs. -/
def OnWayTo (name : String) (place : Place) : Prop :=
  (startOf ((parentOf? name).getD "")).1.Passes (startOf ((parentOf? name).getD "")).2 place

theorem files_makeParent (tree : FileTree) (name : String) :
    (tree.makeParent name).1.files = tree.files := by
  unfold makeParent
  dsimp only
  split
  · rfl
  · exact files_makeNamed tree _

theorem grew_makeParent (tree : FileTree) (name : String) :
    tree.Grew (OnWayTo name) (tree.makeParent name).1 := by
  unfold makeParent
  dsimp only
  split
  · exact .refl tree _
  · exact grew_makeNamed tree _

/-- The text is in one file, from which it is read by the name, and all other files are as before. -/
structure Wrote (tree : FileTree) (name text : String) (after : FileTree) : Prop where
  files : ∃ place, after.files = tree.files.put place (some text)
  read : after.read name = .ok text
  directories : tree.Grew (OnWayTo name) after

/-- All files are as before, and if there is a destination, directories may have been made on the
way to it. -/
structure Spared (tree : FileTree) (destination : Option String) (after : FileTree) : Prop where
  files : after.files = tree.files
  directories : tree.Grew (fun place => ∃ name, destination = some name ∧ OnWayTo name place) after

theorem Spared.refl (tree : FileTree) (destination : Option String) :
    tree.Spared destination tree :=
  ⟨rfl, .refl tree _⟩

theorem spared_makeParent (tree : FileTree) (name : String) :
    tree.Spared (some name) (tree.makeParent name).1 :=
  ⟨files_makeParent tree name, (grew_makeParent tree name).imp fun _ h => ⟨name, rfl, h⟩⟩

/-- **A text is written to its file, or all files stay as they were.** -/
theorem write_cases (tree : FileTree) (name text : String) :
    (∃ after, tree.write name text = (after, none) ∧ tree.Wrote name text after) ∨
    ∃ after failure, tree.write name text = (after, some failure) ∧
      tree.Spared (some name) after := by
  have hfiles := files_makeParent tree name
  have hgrew := grew_makeParent tree name
  have hspared := spared_makeParent tree name
  unfold write
  split
  · rename_i made failure hmade
    rw [hmade] at hspared
    exact .inr ⟨made, failure, rfl, hspared⟩
  · rename_i made hmade
    rw [hmade] at hfiles hgrew hspared
    split
    · rename_i after hput
      obtain ⟨here, last, hadmits, rfl⟩ := admits_of_put hput
      refine .inl ⟨_, rfl, ⟨here ++ [last], ?_⟩, read_withText hadmits, hgrew⟩
      rw [← hfiles]
      rfl
    · exact .inr ⟨made, _, rfl, hspared⟩

end FileTree

end ColorTheme

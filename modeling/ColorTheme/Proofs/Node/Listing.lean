import ColorTheme.Proofs.Node.Update

/-!
# Listings of a tree

* `Node.perm_colorsFrom_painted` : the listing of a tree shows each update once, and nothing else.
* `Node.listed_eq_dotted`, `dotted_inj` : names without dots can be told from the path that is
  shown.
* `Node.flatten_perm` : so the listing shows each colored node below the root, the root itself
  never.
-/

set_option autoImplicit false

namespace ColorTheme

/-! ## Paths and how they are shown -/

/-- A name that can stand between dots. -/
structure IsSegment (name : String) : Prop where
  nonempty : name ≠ ""
  undotted : '.' ∉ name.toList

theorem dotted_cons_cons (first second : String) (rest : List String) :
    dotted (first :: second :: rest) = first ++ "." ++ dotted (second :: rest) :=
  String.intercalate_cons_cons

/-- **Names without dots can be read off the path that they make.** -/
theorem dotted_inj {p q : List String} (hp : ∀ name ∈ p, IsSegment name)
    (hq : ∀ name ∈ q, IsSegment name) (hpne : p ≠ []) (hqne : q ≠ []) (h : dotted p = dotted q) :
    p = q := by
  have hsplit : ∀ r : List String, (∀ name ∈ r, IsSegment name) → r ≠ [] →
      (dotted r).toList.splitOn '.' = r.map String.toList := by
    intro r hr hne
    have hlist : (dotted r).toList = ['.'].intercalate (r.map String.toList) :=
      String.toList_intercalate
    rw [hlist]
    refine List.splitOn_intercalate '.' (fun name hname => ?_) (by simpa using hne)
    obtain ⟨name, hmem, rfl⟩ := List.mem_map.1 hname
    exact (hr name hmem).undotted
  have hlists : p.map String.toList = q.map String.toList := by
    rw [← hsplit p hp hpne, ← hsplit q hq hqne, h]
  exact (List.map_inj_right fun _ _ => String.toList_injective).1 hlists

namespace Node

theorem foldl_listed {shown : String} (h : shown ≠ "") (path : List String) :
    path.foldl (fun shown name => if shown.isEmpty then name else shown ++ "." ++ name) shown =
      dotted (shown :: path) := by
  induction path generalizing shown with
  | nil => exact String.intercalate_singleton.symm
  | cons name path ih =>
    have hempty : ¬ shown.isEmpty = true := by simpa using h
    have hnext : shown ++ "." ++ name ≠ "" := by simp
    rw [List.foldl_cons, if_neg hempty, ih hnext, dotted_cons_cons]
    cases path with
    | nil =>
      rw [dotted, dotted, String.intercalate_singleton, String.intercalate_singleton]
    | cons second path =>
      simp only [dotted_cons_cons, String.append_assoc]

/-- A path is shown with dots between its names. -/
theorem listed_eq_dotted {path : List String} (h : ∀ name ∈ path, IsSegment name) :
    listed path = dotted path := by
  cases path with
  | nil => rfl
  | cons name path =>
    have hname := (h name List.mem_cons_self).nonempty
    exact foldl_listed hname path

/-- Only the path of the root is shown as nothing. -/
theorem isEmpty_listed {path : List String} (h : ∀ name ∈ path, IsSegment name) :
    (listed path).isEmpty = true ↔ path = [] := by
  constructor
  · intro hempty
    cases path with
    | nil => rfl
    | cons name path =>
      have hname := (h name List.mem_cons_self).nonempty
      rw [listed_eq_dotted h, String.isEmpty_iff] at hempty
      cases path with
      | nil =>
        rw [dotted, String.intercalate_singleton] at hempty
        exact absurd hempty hname
      | cons second path =>
        rw [dotted_cons_cons] at hempty
        simp at hempty
  · rintro rfl
    rfl

/-! ## What a listing shows -/

/-- A change of one child that brings one new entry into its listing brings it into that of all
children. -/
theorem perm_colorsOfChildren_alter {walked : List String} {name : String}
    {f : Option Node → Node} {entry : List String × Color} {children : List (String × Node)}
    (h : ((f (Entries.get? name children)).colorsFrom (walked ++ [name])).Perm
      (entry :: ((Entries.get? name children).getD blank).colorsFrom (walked ++ [name]))) :
    (colorsOfChildren walked (Entries.alter name f children)).Perm
      (entry :: colorsOfChildren walked children) := by
  induction children with
  | nil =>
    rw [Entries.alter, colorsOfChildren, colorsOfChildren]
    exact (List.append_nil _).symm ▸ h
  | cons first children ih =>
    obtain ⟨key, child⟩ := first
    rw [Entries.get?] at h
    rw [Entries.alter, colorsOfChildren]
    split at h
    · rename_i hkey
      rw [if_pos hkey, colorsOfChildren, hkey, ← List.cons_append]
      exact h.append_right _
    · rename_i hkey
      rw [if_neg hkey, colorsOfChildren]
      exact ((ih h).append_left _).trans List.perm_middle

/-- An update of a node without color adds the entry of this node to the listing. -/
theorem perm_colorsFrom_setColor {p walked : List String} {c : Color} {n : Node}
    (h : n.colorAt p = none) :
    ((n.setColor p (some c)).colorsFrom walked).Perm
      ((walked ++ p, c) :: n.colorsFrom walked) := by
  induction p generalizing walked n with
  | nil =>
    obtain ⟨own, children⟩ := n
    obtain rfl : own = none := h
    rw [setColor_nil, withColor, colorsFrom, colorsFrom, List.append_nil]
    exact .refl _
  | cons name p ih =>
    obtain ⟨own, children⟩ := n
    have hchild : ((Entries.get? name children).getD blank).colorAt p = none := by
      rw [colorAt_cons] at h
      cases hget : Entries.get? name children with
      | none => exact colorAt_blank p
      | some child =>
        have hsome : (mk own children).child? name = some child := hget
        rw [hsome] at h
        exact h
    have hlisted : ((((Entries.get? name children).getD blank).setColor p (some c)).colorsFrom
        (walked ++ [name])).Perm ((walked ++ [name] ++ p, c) ::
          ((Entries.get? name children).getD blank).colorsFrom (walked ++ [name])) := ih hchild
    rw [List.append_assoc] at hlisted
    have hchildren : (colorsOfChildren walked (Entries.alter name
        (fun old => (old.getD blank).setColor p (some c)) children)).Perm
        ((walked ++ name :: p, c) :: colorsOfChildren walked children) :=
      perm_colorsOfChildren_alter hlisted
    show (own.toList.map (fun color => (walked, color)) ++ colorsOfChildren walked (Entries.alter name
      (fun old => (old.getD blank).setColor p (some c)) children)).Perm _
    rw [colorsFrom]
    exact (hchildren.append_left _).trans List.perm_middle

/-- **The listing of a tree made by updates at different paths shows each of them once.** -/
theorem perm_colorsFrom_painted {marks : List (List String × Color)}
    (h : (marks.map Prod.fst).Nodup) : ((blank.painted marks).colorsFrom []).Perm marks := by
  induction marks using List.reverseRecOn with
  | nil => exact .nil
  | append_singleton marks mark ih =>
    rw [List.map_append, List.map_singleton, List.nodup_append] at h
    have hfresh : (blank.painted marks).colorAt mark.1 = none := by
      by_contra hne
      obtain ⟨c, hc⟩ := Option.ne_none_iff_exists'.1 hne
      have hmark := (colorAt_painted h.1 mark.1 c).1 hc
      exact h.2.2 _ (List.mem_map_of_mem hmark) _ (List.mem_singleton_self _) rfl
    rw [painted_append]
    have hlisted : ((blank.painted marks).painted [mark]).colorsFrom [] |>.Perm
        (mark :: (blank.painted marks).colorsFrom []) := perm_colorsFrom_setColor hfresh
    exact hlisted.trans (((ih h.1).cons mark).trans (List.perm_append_singleton mark marks).symm)

/-- **The listing shows each colored node below the root once, by the path to it.** -/
theorem flatten_perm {marks : List (List String × Color)} (h : (marks.map Prod.fst).Nodup)
    (hnames : ∀ mark ∈ marks, ∀ name ∈ mark.1, IsSegment name) :
    (blank.painted marks).flatten.Perm
      ((marks.filter fun mark => mark.1 ≠ []).map fun mark => (dotted mark.1, mark.2)) := by
  refine ((perm_colorsFrom_painted h).filterMap _).trans (.of_eq ?_)
  clear h
  induction marks with
  | nil => rfl
  | cons mark marks ih =>
    obtain ⟨path, color⟩ := mark
    have hpath : ∀ name ∈ path, IsSegment name := hnames (path, color) List.mem_cons_self
    have ih := ih fun m hm => hnames m (List.mem_cons_of_mem _ hm)
    by_cases hroot : path = []
    · have hempty := (isEmpty_listed hpath).2 hroot
      rw [List.filterMap_cons, List.filter_cons_of_neg (by simpa using hroot)]
      simp only [hempty, if_true]
      exact ih
    · have hshown : ¬ (listed path).isEmpty = true := fun h => hroot ((isEmpty_listed hpath).1 h)
      rw [List.filterMap_cons, List.filter_cons_of_pos (by simpa using hroot), List.map_cons]
      simp only [hshown, Bool.false_eq_true, if_false]
      rw [ih, listed_eq_dotted hpath]

end Node

end ColorTheme

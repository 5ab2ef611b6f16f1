import ColorTheme.Proofs.Entries
import ColorTheme.Proofs.Node.Listing
import ColorTheme.Proofs.Node.Lookup

/-!
# Flattening a tree and looking it up

A tree can be read as the list of its colors with their paths, or asked for the color at a path.

* `Node.Addressable` : below every node the children have different names that can stand between
  dots, so that the dotted path to a node tells which node it is.
* `Node.mem_colorsFrom_iff` : listed is what a lookup finds.
* `Node.pairwise_colorsFrom` : a node is listed before all that is below it, and no node twice.
* `Node.Together`, `Node.together_colorsFrom` : what is listed in and below a node stands together,
  the node first, then its children in their order, each with all that is below it.
* `Node.flattens` : so the flat listing of a tree and lookups in it are two views of one tree.
-/

set_option autoImplicit false

namespace ColorTheme.Node

/-- In and below the node, children of one node have different names, as the keys of a map do, and
each name can stand between dots. -/
inductive Addressable : Node → Prop
  | mk {own : Option Color} {children : Entries String Node} (distinct : children.keys.Nodup)
      (segments : ∀ name ∈ children.keys, IsSegment name)
      (below : ∀ child ∈ children, Addressable child.2) : Addressable ⟨own, children⟩

/-- The entry of a listing as the tree above shows it, where `front` leads to the node. -/
def entryBelow (front : List String) (entry : List String × Color) : List String × Color :=
  (front ++ entry.1, entry.2)

variable {n m child : Node} {own : Option Color} {children : Entries String Node}
  {name : String} {path names : List String} {c : Color}
  {entries : List (List String × Color)}

/-! ## Listings from the root -/

mutual

theorem colorsFrom_append (front walked : List String) : ∀ n : Node,
    n.colorsFrom (front ++ walked) = (n.colorsFrom walked).map (entryBelow front)
  | ⟨own, children⟩ => by
    rw [colorsFrom, colorsFrom, List.map_append, List.map_map,
      colorsOfChildren_append front walked children]
    rfl

theorem colorsOfChildren_append (front walked : List String) :
    ∀ children : List (String × Node), colorsOfChildren (front ++ walked) children =
      (colorsOfChildren walked children).map (entryBelow front)
  | [] => rfl
  | (name, child) :: rest => by
    rw [colorsOfChildren, colorsOfChildren, List.map_append, List.append_assoc,
      colorsFrom_append front (walked ++ [name]) child, colorsOfChildren_append front walked rest]

end

/-- The listing of what is below a node, child by child. -/
theorem colorsOfChildren_eq_flatMap (children : Entries String Node) :
    colorsOfChildren [] children =
      children.flatMap fun child => (child.2.colorsFrom []).map (entryBelow [child.1]) := by
  induction children with
  | nil => rfl
  | cons first children ih =>
    have hfirst := colorsFrom_append [first.1] [] first.2
    rw [List.append_nil] at hfirst
    rw [colorsOfChildren, List.nil_append, hfirst, ih, List.flatMap_cons]

theorem mem_colorsOfChildren_iff {entry : List String × Color} :
    entry ∈ colorsOfChildren [] children ↔
      ∃ name child path, (name, child) ∈ children ∧ (path, entry.2) ∈ child.colorsFrom [] ∧
        entry.1 = name :: path := by
  rw [colorsOfChildren_eq_flatMap, List.mem_flatMap]
  constructor
  · rintro ⟨⟨name, child⟩, hchild, hentry⟩
    obtain ⟨⟨path, c⟩, hbelow, rfl⟩ := List.mem_map.1 hentry
    exact ⟨name, child, path, hchild, hbelow, rfl⟩
  · rintro ⟨name, child, path, hchild, hbelow, hpath⟩
    obtain ⟨shown, c⟩ := entry
    obtain rfl : shown = name :: path := hpath
    exact ⟨(name, child), hchild, List.mem_map.2 ⟨(path, c), hbelow, rfl⟩⟩

theorem mem_own_iff {entry : List String × Color} :
    entry ∈ own.toList.map (fun color => (([] : List String), color)) ↔
      entry.1 = [] ∧ own = some entry.2 := by
  obtain ⟨path, c⟩ := entry
  cases own with
  | none => simp
  | some color => simp [eq_comm]

/-! ## What is listed -/

namespace Addressable

theorem distinct_children (h : n.Addressable) : n.children.keys.Nodup := by
  cases h with
  | mk distinct _ _ => exact distinct

theorem of_child (h : n.Addressable) (hchild : n.child? name = some child) :
    IsSegment name ∧ child.Addressable := by
  cases h with
  | mk distinct segments below =>
    have hmem : (name, child) ∈ _ := (Entries.get?_eq_some_iff distinct).1 hchild
    exact ⟨segments name (List.mem_map_of_mem hmem), below _ hmem⟩

/-- All names on the way to a node can stand between dots. -/
theorem isSegment_of_get? (h : n.Addressable) (hm : n.get? path = some m) :
    ∀ name ∈ path, IsSegment name := by
  induction path generalizing n with
  | nil =>
    intro name hname
    cases hname
  | cons first path ih =>
    rw [get?_cons] at hm
    obtain ⟨child, hchild, hm⟩ := Option.bind_eq_some_iff.1 hm
    obtain ⟨hfirst, hbelow⟩ := h.of_child hchild
    exact List.forall_mem_cons.2 ⟨hfirst, ih hbelow hm⟩

end Addressable

/-- **Listed are the own colors of all nodes**, each by the path that leads to its node. -/
theorem mem_colorsFrom_iff (h : n.Addressable) :
    (path, c) ∈ n.colorsFrom [] ↔ n.colorAt path = some c := by
  induction h generalizing path with
  | @mk own children distinct segments below ih =>
    rw [colorsFrom, List.mem_append, mem_own_iff, mem_colorsOfChildren_iff]
    cases path with
    | nil =>
      rw [colorAt_nil]
      constructor
      · rintro (⟨-, hown⟩ | ⟨name, child, path, -, -, hpath⟩)
        · exact hown
        · cases hpath
      · intro hown
        exact .inl ⟨rfl, hown⟩
    | cons name path =>
      rw [colorAt_cons, Option.bind_eq_some_iff]
      constructor
      · rintro (⟨hroot, -⟩ | ⟨name', child, path', hchild, hbelow, hpath⟩)
        · cases hroot
        · obtain ⟨rfl, rfl⟩ := List.cons.inj hpath
          exact ⟨child, (Entries.get?_eq_some_iff distinct).2 hchild, (ih _ hchild).1 hbelow⟩
      · rintro ⟨child, hchild, hcolor⟩
        have hmem : (name, child) ∈ children := (Entries.get?_eq_some_iff distinct).1 hchild
        exact .inr ⟨name, child, path, hmem, (ih _ hmem).2 hcolor, rfl⟩

/-! ## The order of the listing -/

/-- **No entry stands in front of that of a node which it is in or below.** -/
theorem pairwise_colorsFrom (h : n.Addressable) :
    (n.colorsFrom []).Pairwise fun e f => ¬ f.1 <+: e.1 := by
  induction h with
  | @mk own children distinct segments below ih =>
    rw [colorsFrom, List.pairwise_append]
    refine ⟨?_, ?_, ?_⟩
    · cases own with
      | none => exact .nil
      | some color => exact List.pairwise_singleton _ _
    · rw [colorsOfChildren_eq_flatMap, List.pairwise_flatMap]
      constructor
      · intro child hchild
        rw [List.pairwise_map]
        refine (ih child hchild).imp ?_
        intro e f hbefore hbegins
        apply hbefore
        exact (List.prefix_cons_inj child.1).1 hbegins
      · have hnames : children.Pairwise fun a b => a.1 ≠ b.1 := List.pairwise_map.1 distinct
        refine hnames.imp ?_
        intro a b hne e he f hf hbegins
        obtain ⟨e, -, rfl⟩ := List.mem_map.1 he
        obtain ⟨f, -, rfl⟩ := List.mem_map.1 hf
        exact hne (List.cons_prefix_cons.1 hbegins).1.symm
    · intro e he f hf hbegins
      obtain ⟨name, child, path, -, -, hpath⟩ := mem_colorsOfChildren_iff.1 hf
      rw [(mem_own_iff.1 he).1, hpath] at hbegins
      simp at hbegins

/-- In the listing, what is in or below the node at `path` stands together: the node's own color,
then a block for each of the given children, in their order. -/
def Together (entries : List (List String × Color)) (path names : List String) : Prop :=
  ∃ before own blocks after, entries = before ++ own ++ blocks.flatten ++ after ∧
    (∀ e ∈ own, e.1 = path) ∧
    List.Forall₂ (fun name block => ∀ e ∈ block, path ++ [name] <+: e.1) names blocks ∧
    ∀ e ∈ before ++ after, ¬ path <+: e.1

/-- What stands together below a node does so in a listing that shows the node among others. -/
theorem Together.below (h : Together entries path names)
    {front behind : List (List String × Color)}
    (hothers : ∀ e ∈ front ++ behind, ¬ [name] <+: e.1) :
    Together (front ++ entries.map (entryBelow [name]) ++ behind) (name :: path) names := by
  obtain ⟨before, own, blocks, after, rfl, hown, hblocks, houtside⟩ := h
  rw [List.forall_mem_append] at hothers houtside
  have hstart (e : List String × Color) (he : ¬ [name] <+: e.1) : ¬ name :: path <+: e.1 := by
    intro hbegins
    apply he
    exact (List.prefix_append [name] path).trans hbegins
  have hmapped (part : List (List String × Color)) (hpart : ∀ e ∈ part, ¬ path <+: e.1) :
      ∀ e ∈ part.map (entryBelow [name]), ¬ name :: path <+: e.1 := by
    intro e he hbegins
    obtain ⟨e, hmem, rfl⟩ := List.mem_map.1 he
    exact hpart e hmem ((List.prefix_cons_inj name).1 hbegins)
  refine ⟨front ++ before.map (entryBelow [name]), own.map (entryBelow [name]),
    blocks.map (List.map (entryBelow [name])), after.map (entryBelow [name]) ++ behind,
    ?_, ?_, ?_, ?_⟩
  · simp only [List.map_append, List.map_flatten, List.append_assoc]
  · intro e he
    obtain ⟨e, hmem, rfl⟩ := List.mem_map.1 he
    exact congrArg (name :: ·) (hown e hmem)
  · rw [List.forall₂_map_right_iff]
    refine hblocks.imp ?_
    intro child block hblock e he
    obtain ⟨e, hmem, rfl⟩ := List.mem_map.1 he
    exact (List.prefix_cons_inj name).2 (hblock e hmem)
  · simp only [List.forall_mem_append]
    exact ⟨⟨fun e he => hstart e (hothers.1 e he), hmapped before houtside.1⟩,
      hmapped after houtside.2, fun e he => hstart e (hothers.2 e he)⟩

/-- The children of a node have a block each, all in a row. -/
theorem together_colorsOfChildren (own : List (List String × Color))
    (hown : ∀ e ∈ own, e.1 = []) (children : Entries String Node) :
    Together (own ++ colorsOfChildren [] children) [] children.keys := by
  refine ⟨[], own, children.map fun child => (child.2.colorsFrom []).map (entryBelow [child.1]),
    [], ?_, hown, ?_, ?_⟩
  · rw [colorsOfChildren_eq_flatMap, List.flatMap_def]
    simp
  · rw [Entries.keys, List.forall₂_map_left_iff, List.forall₂_map_right_iff, List.forall₂_same]
    intro child _ e he
    obtain ⟨e, -, rfl⟩ := List.mem_map.1 he
    exact List.prefix_append [child.1] e.1
  · intro e he
    cases he

/-- What stands together in the listing of a child does so in the listing of all children. -/
theorem together_of_child (distinct : children.keys.Nodup) (hchild : (name, child) ∈ children)
    (h : Together (child.colorsFrom []) path names) (own : List (List String × Color))
    (hown : ∀ e ∈ own, e.1 = []) :
    Together (own ++ colorsOfChildren [] children) (name :: path) names := by
  obtain ⟨front, behind, rfl⟩ := List.append_of_mem hchild
  have hnew : name ∉ Entries.keys front ∧ name ∉ Entries.keys behind := by
    rw [Entries.keys, List.map_append, List.map_cons, List.nodup_middle, List.nodup_cons,
      List.mem_append, not_or] at distinct
    exact distinct.1
  have hpart (part : Entries String Node) (hpart : name ∉ part.keys) :
      ∀ e ∈ colorsOfChildren [] part, ¬ [name] <+: e.1 := by
    intro e he hbegins
    obtain ⟨other, child, path, hmem, -, hpath⟩ := mem_colorsOfChildren_iff.1 he
    rw [hpath, List.cons_prefix_cons] at hbegins
    rw [hbegins.1] at hpart
    exact hpart (List.mem_map_of_mem hmem)
  have hroot : ∀ e ∈ own, ¬ [name] <+: e.1 := by
    intro e he
    rw [hown e he]
    simp
  have hsplit : own ++ colorsOfChildren [] (front ++ (name, child) :: behind) =
      (own ++ colorsOfChildren [] front) ++ (child.colorsFrom []).map (entryBelow [name]) ++
        colorsOfChildren [] behind := by
    simp only [colorsOfChildren_eq_flatMap, List.flatMap_append, List.flatMap_cons,
      List.append_assoc]
  rw [hsplit]
  apply h.below
  simp only [List.forall_mem_append]
  exact ⟨⟨hroot, hpart front hnew.1⟩, hpart behind hnew.2⟩

/-- **What is listed in and below a node stands together**, by induction on the path to the node. -/
theorem together_colorsFrom (h : n.Addressable) (hm : n.get? path = some m) :
    Together (n.colorsFrom []) path m.children.keys := by
  induction path generalizing n with
  | nil =>
    obtain rfl : n = m := Option.some.inj hm
    obtain ⟨own, children⟩ := n
    rw [colorsFrom]
    exact together_colorsOfChildren _ (fun e he => (mem_own_iff.1 he).1) children
  | cons name path ih =>
    rw [get?_cons] at hm
    obtain ⟨child, hchild, hm⟩ := Option.bind_eq_some_iff.1 hm
    have hchildren := ih (h.of_child hchild).2 hm
    obtain ⟨own, children⟩ := n
    rw [colorsFrom]
    exact together_of_child h.distinct_children
      ((Entries.get?_eq_some_iff h.distinct_children).1 hchild) hchildren _
      fun e he => (mem_own_iff.1 he).1

/-! ## The flat listing -/

/-- The flat listing leaves out the root, and writes all other paths with dots. -/
theorem flatten_eq_map (h : n.Addressable) :
    n.flatten = (colorsOfChildren [] n.children).map fun e => (dotted e.1, e.2) := by
  have hsegments : ∀ e ∈ colorsOfChildren [] n.children, ∀ name ∈ e.1, IsSegment name := by
    intro e he
    have hlisted : (e.1, e.2) ∈ n.colorsFrom [] := by
      obtain ⟨own, children⟩ := n
      rw [colorsFrom]
      exact List.mem_append_right _ he
    obtain ⟨m, hm, -⟩ := Option.bind_eq_some_iff.1 ((mem_colorsFrom_iff h).1 hlisted)
    exact h.isSegment_of_get? hm
  obtain ⟨own, children⟩ := n
  change ∀ e ∈ colorsOfChildren [] children, _ at hsegments
  have hroot : (own.toList.map fun color => (([] : List String), color)).filterMap
      (fun e => if (listed e.1).isEmpty then none else some (listed e.1, e.2)) = [] := by
    cases own <;> rfl
  have hbelow : ∀ e ∈ colorsOfChildren [] children,
      (if (listed e.1).isEmpty then none else some (listed e.1, e.2)) =
        some (dotted e.1, e.2) := by
    intro e he
    have hpath : e.1 ≠ [] := by
      obtain ⟨name, child, path, -, -, hpath⟩ := mem_colorsOfChildren_iff.1 he
      rw [hpath]
      exact List.cons_ne_nil name path
    have hshown : ¬ (listed e.1).isEmpty = true :=
      fun hempty => hpath ((isEmpty_listed (hsegments e he)).1 hempty)
    rw [if_neg hshown, listed_eq_dotted (hsegments e he)]
  have hflatten : flatten ⟨own, children⟩ = ((mk own children).colorsFrom []).filterMap
      (fun e => if (listed e.1).isEmpty then none else some (listed e.1, e.2)) := rfl
  rw [hflatten, colorsFrom, List.filterMap_append, hroot, List.nil_append,
    List.filterMap_congr hbelow, List.filterMap_eq_map']
  rfl

/-- The entries are the listing of a tree, as lookups in the tree have it. -/
structure ListedBy (tree : Node) (entries : List (List String × Color)) : Prop where
  /-- Listed is each path below the root that is looked up with success, with the color that is
  found, and nothing else. -/
  lookups : ∀ path c, (path, c) ∈ entries ↔ path ≠ [] ∧ tree.color? path = .ok c
  /-- No path is listed twice. -/
  once : (entries.map fun e => e.1).Nodup
  /-- No two paths are written alike. -/
  distinct : (entries.map fun e => dotted e.1).Nodup
  /-- A node is listed before all nodes below it. -/
  parents : entries.Pairwise fun e f => ¬ f.1 <+: e.1
  /-- The node at any path is listed together with all that is below it, child by child. -/
  siblings : ∀ path n, tree.get? path = some n → Together entries path n.children.keys

/-- **The flat listing of a tree and lookups in it show the same tree.** -/
theorem flattens {tree : Node} (h : tree.Addressable) :
    ∃ entries, tree.ListedBy entries ∧ tree.flatten = entries.map fun e => (dotted e.1, e.2) := by
  refine ⟨colorsOfChildren [] tree.children, ?_, flatten_eq_map h⟩
  have hlookups : ∀ path c, (path, c) ∈ colorsOfChildren [] tree.children ↔
      path ≠ [] ∧ tree.colorAt path = some c := by
    intro path c
    rw [← mem_colorsFrom_iff h]
    obtain ⟨own, children⟩ := tree
    rw [colorsFrom, List.mem_append, mem_own_iff]
    constructor
    · intro hlisted
      obtain ⟨name, child, rest, -, -, hpath⟩ := mem_colorsOfChildren_iff.1 hlisted
      refine ⟨?_, .inr hlisted⟩
      rintro rfl
      cases hpath
    · rintro ⟨hpath, ⟨hroot, -⟩ | hlisted⟩
      · exact absurd hroot hpath
      · exact hlisted
  have hparents : (colorsOfChildren [] tree.children).Pairwise fun e f => ¬ f.1 <+: e.1 := by
    have hall := pairwise_colorsFrom h
    obtain ⟨own, children⟩ := tree
    rw [colorsFrom, List.pairwise_append] at hall
    exact hall.2.1
  have honce : (colorsOfChildren [] tree.children).Pairwise fun e f => e.1 ≠ f.1 := by
    refine hparents.imp ?_
    intro e f hbefore heq
    apply hbefore
    exact ⟨[], by rw [List.append_nil, heq]⟩
  refine ⟨?lookups, List.pairwise_map.2 honce, ?distinct, hparents, ?siblings⟩
  case lookups =>
    intro path c
    rw [hlookups, color?_eq_ok_iff]
  case distinct =>
    refine List.pairwise_map.2 (honce.imp_of_mem ?_)
    intro e f he hf hne heq
    obtain ⟨hepath, hecolor⟩ := (hlookups e.1 e.2).1 he
    obtain ⟨hfpath, hfcolor⟩ := (hlookups f.1 f.2).1 hf
    obtain ⟨_, hm, -⟩ := Option.bind_eq_some_iff.1 hecolor
    obtain ⟨_, hk, -⟩ := Option.bind_eq_some_iff.1 hfcolor
    exact hne (dotted_inj (h.isSegment_of_get? hm) (h.isSegment_of_get? hk) hepath hfpath heq)
  case siblings =>
    intro path n hn
    cases path with
    | nil =>
      obtain rfl : tree = n := Option.some.inj hn
      exact together_colorsOfChildren [] (by simp) tree.children
    | cons name path =>
      rw [get?_cons] at hn
      obtain ⟨child, hchild, hn⟩ := Option.bind_eq_some_iff.1 hn
      have hmem := (Entries.get?_eq_some_iff h.distinct_children).1 hchild
      exact together_of_child h.distinct_children hmem
        (together_colorsFrom (h.of_child hchild).2 hn) [] (by simp)

/-- A tree of a colored root, a leaf, a color with a color below it, a group and an empty node. -/
def shapedTree : Node :=
  ⟨some ⟨9, 9, 9⟩, [("base", ⟨some ⟨1, 2, 3⟩, []⟩),
    ("pine", ⟨some ⟨4, 5, 6⟩, [("low", ⟨some ⟨7, 8, 9⟩, []⟩)]⟩),
    ("ink", ⟨none, [("low", ⟨some ⟨1, 1, 1⟩, []⟩), ("bare", ⟨none, []⟩)]⟩)]⟩

theorem flattens_shapedTree :
    shapedTree.Addressable ∧ ∃ entries, shapedTree.ListedBy entries ∧
      shapedTree.flatten = entries.map fun e => (dotted e.1, e.2) := by
  have hnames {names : List String} (h : ∀ name ∈ names, name ≠ "" ∧ '.' ∉ name.toList) :
      ∀ name ∈ names, IsSegment name := fun name hname => ⟨(h name hname).1, (h name hname).2⟩
  have hleaf (c : Option Color) : Addressable ⟨c, []⟩ :=
    .mk List.nodup_nil (hnames (by decide)) nofun
  have hpine : Addressable ⟨some ⟨4, 5, 6⟩, [("low", ⟨some ⟨7, 8, 9⟩, []⟩)]⟩ :=
    .mk (by decide) (hnames (by decide)) (by simpa using hleaf _)
  have hink : Addressable ⟨none, [("low", ⟨some ⟨1, 1, 1⟩, []⟩), ("bare", ⟨none, []⟩)]⟩ :=
    .mk (by decide) (hnames (by decide)) (by simpa using ⟨hleaf _, hleaf _⟩)
  have htree : shapedTree.Addressable :=
    .mk (by decide) (hnames (by decide)) (by simpa using ⟨hleaf _, hpine, hink⟩)
  exact ⟨htree, flattens htree⟩

end ColorTheme.Node

import ColorTheme.Proofs.Account.Listing
import ColorTheme.Proofs.Node.Children
import Mathlib.Order.WellFounded

/-!
# The shape of the trees

The tree of a block is made by the attributes of the block that resolve, one after the other in the
order of the source.  An attribute that is rejected, and a block in which none resolves, leave
nothing behind.

* `FirstBelow` : the first attribute of the source that colors a node or one below it.
* `Chapter.childNames_tree` : the children of a node, by the visits to the block.
* `Chapter.leaf_of_flat` : in a block that holds no blocks, they are leaves of allowed names.
* `Node.WellShaped` : what a tree of an analysis is like, node by node.
* `Analysis.wellShaped` : so are the trees of every source under the standard table.
-/

set_option autoImplicit false

namespace ColorTheme

/-! ## What comes first -/

section

variable {α β : Type} [DecidableEq β] {xs : List α} {f : α → Option β} {place : α → Nat}

/-- What is found in a list, each thing where it comes first: of two things, the one that stands
in front is found somewhere before each place of the other. -/
theorem pairwise_eraseDups_filterMap (h : xs.Pairwise fun x y => place x < place y) :
    (xs.filterMap f).eraseDups.Pairwise fun a b =>
      ∀ y ∈ xs, f y = some b → ∃ x ∈ xs, f x = some a ∧ place x < place y := by
  induction xs using List.reverseRecOn with
  | nil => exact .nil
  | append_singleton xs z ih =>
    obtain ⟨hxs, -, hz⟩ := List.pairwise_append.1 h
    have hlast : ∀ x ∈ xs, place x < place z := fun x hx => hz x hx z (List.mem_singleton_self z)
    have hfound : ∀ a ∈ (xs.filterMap f).eraseDups, ∃ x ∈ xs, f x = some a := by
      intro a ha
      exact List.mem_filterMap.1 (List.mem_eraseDups.1 ha)
    -- What is found in front of the last thing keeps its place among all.
    have hfront : (xs.filterMap f).eraseDups.Pairwise fun a b =>
        ∀ y ∈ xs ++ [z], f y = some b → ∃ x ∈ xs ++ [z], f x = some a ∧ place x < place y := by
      refine (ih hxs).imp_of_mem ?_
      intro a b ha _ hab y hy hb
      rcases List.mem_append.1 hy with hy | hy
      · obtain ⟨x, hx, hfx, hlt⟩ := hab y hy hb
        exact ⟨x, List.mem_append_left _ hx, hfx, hlt⟩
      · obtain rfl := List.mem_singleton.1 hy
        obtain ⟨x, hx, hfx⟩ := hfound a ha
        exact ⟨x, List.mem_append_left _ hx, hfx, hlast x hx⟩
    rw [List.filterMap_append]
    cases hfz : f z with
    | none => simpa [hfz] using hfront
    | some k =>
      have hone : [z].filterMap f = [k] := by simp [hfz]
      rw [hone, eraseDups_concat]
      split
      · exact hfront
      · rename_i hnew
        refine List.pairwise_append.2 ⟨hfront, List.pairwise_singleton _ _, ?_⟩
        intro a ha b hb y hy hfy
        obtain rfl := List.mem_singleton.1 hb
        have hyz : y = z := by
          rcases List.mem_append.1 hy with hy | hy
          · exact absurd (List.mem_filterMap.2 ⟨y, hy, hfy⟩) hnew
          · exact List.mem_singleton.1 hy
        obtain ⟨x, hx, hfx⟩ := hfound a ha
        exact ⟨x, List.mem_append_left _ hx, hfx, hyz ▸ hlast x hx⟩

end

/-- The visit is to an attribute that resolves, and the node it colors is the one at `path` or
below it. -/
def Visit.Reaches (v : Visit) (path : Path) : Prop :=
  (∃ a c, v.ResolvesTo a c) ∧ path <+: v.nodePath

/-- Of the visits to attributes that reach `path`, this one is to the first in the source. -/
structure FirstBelow (visits : List Visit) (path : Path) (v : Visit) : Prop where
  visited : v ∈ visits
  reaches : v.Reaches path
  first : ∀ w ∈ visits, w.Reaches path → v.item.span.start ≤ w.item.span.start

theorem exists_firstBelow {visits : List Visit} {path : Path} {v : Visit} (hv : v ∈ visits)
    (hreaches : v.Reaches path) : ∃ w, FirstBelow visits path w := by
  obtain ⟨w, ⟨hw, hwreaches⟩, hleast⟩ :=
    (measure fun v : Visit => v.item.span.start).wf.has_min {v | v ∈ visits ∧ v.Reaches path}
      ⟨v, hv, hreaches⟩
  refine ⟨w, hw, hwreaches, ?_⟩
  intro u hu hureaches
  exact Nat.le_of_not_lt (hleast u ⟨hu, hureaches⟩)

/-! ## The tree of a chapter -/

namespace Chapter

variable {c : Chapter} {v : Visit} {path : List String} {name : String}

/-- The name that the visit leads on to behind a path in the block. -/
def next? (path : List String) (v : Visit) : Option String :=
  v.mark?.bind fun mark => Node.nextName? path mark.1

theorem next?_eq_some_iff (hv : v ∈ c.visits) :
    next? path v = some name ↔ v.Reaches (c.rule.name :: path ++ [name]) := by
  have hroot : v.nodePath = c.rule.name :: v.nodePath.tail := c.tour.nodePath_eq hv
  rw [next?, Option.bind_eq_some_iff, Visit.Reaches]
  constructor
  · rintro ⟨⟨target, color⟩, hmark, hnext⟩
    obtain ⟨⟨a, ha⟩, hpath⟩ := (c.tour.mark?_eq_some_iff hv).1 hmark
    refine ⟨⟨a, color, ha⟩, ?_⟩
    rw [hpath]
    exact (List.prefix_cons_inj _).2 (Node.nextName?_eq_some_iff.1 hnext)
  · rintro ⟨⟨a, color, ha⟩, hprefix⟩
    rw [hroot] at hprefix
    refine ⟨(v.nodePath.tail, color), (c.tour.mark?_eq_some_iff hv).2 ⟨⟨a, ha⟩, hroot⟩, ?_⟩
    exact Node.nextName?_eq_some_iff.2 ((List.prefix_cons_inj _).1 hprefix)

/-- **The children of a node are what the visits lead on to, each where it comes first.** -/
theorem childNames_tree (c : Chapter) (path : List String) :
    c.tree.childNames path = (c.visits.filterMap (next? path)).eraseDups := by
  rw [c.tree_eq, Node.childNames_painted, List.filterMap_filterMap]
  rfl

theorem mem_childNames_tree_iff :
    name ∈ c.tree.childNames path ↔
      ∃ v ∈ c.visits, v.Reaches (c.rule.name :: path ++ [name]) := by
  rw [childNames_tree, List.mem_eraseDups, List.mem_filterMap]
  constructor
  · rintro ⟨v, hv, hnext⟩
    exact ⟨v, hv, (next?_eq_some_iff hv).1 hnext⟩
  · rintro ⟨v, hv, hreaches⟩
    exact ⟨v, hv, (next?_eq_some_iff hv).2 hreaches⟩

/-- In or below each node of the tree a color is found, but for a root without children. -/
theorem exists_colorAt (c : Chapter) {n : Node} (h : c.tree.get? path = some n)
    (hroot : path ≠ [] ∨ n.children ≠ []) : ∃ rest color, n.colorAt rest = some color := by
  rw [c.tree_eq] at h
  exact Node.exists_colorAt_painted c.tour.marks_nodup h hroot

/-! ## The tree of a block that holds no blocks -/

theorem allows_of_flat (hflat : c.rule.nesting = false) (hmem : name ∈ c.tree.childNames []) :
    c.rule.allows name = true := by
  obtain ⟨v, hv, ⟨a, color, ha⟩, hprefix⟩ := mem_childNames_tree_iff.1 hmem
  have hpath : v.nodePath = [c.rule.name, v.item.name.name] := c.tour.nodePath_of_flat hflat hv
  obtain ⟨b, hb, -, -, hallows⟩ := c.tour.resolvesTo_of_colored hv ha.2
  have hname : name = b.name.name := by
    rw [hpath, hb.1] at hprefix
    simpa [Item.name] using hprefix
  rw [hname]
  exact hallows

/-- A child of a child would be reached by a path that is too long. -/
theorem childNames_of_flat (hflat : c.rule.nesting = false) (name : String) :
    c.tree.childNames [name] = [] := by
  apply List.eq_nil_iff_forall_not_mem.2
  intro inner hinner
  obtain ⟨v, hv, -, hlong⟩ := mem_childNames_tree_iff.1 hinner
  rw [c.tour.nodePath_of_flat hflat hv] at hlong
  simpa using hlong.length_le

/-- The children of such a block are leaves of allowed names. -/
theorem leaf_of_flat (hflat : c.rule.nesting = false) {child : String × Node}
    (hchild : child ∈ c.tree.children) (hdistinct : c.tree.children.keys.Nodup) :
    c.rule.allows child.1 = true ∧ child.2.shape = .leaf := by
  obtain ⟨name, n⟩ := child
  have hname : name ∈ c.tree.childNames [] := List.mem_map_of_mem hchild
  have hget : c.tree.get? [name] = some n := by
    have hfound : c.tree.child? name = some n := (Entries.get?_eq_some_iff hdistinct).2 hchild
    rw [Node.get?_cons, hfound]
    rfl
  have hchildren : n.children = [] := by
    have hnone := childNames_of_flat hflat name
    rw [Node.childNames_of_get? hget] at hnone
    exact List.map_eq_nil_iff.1 hnone
  obtain ⟨rest, color, hfound⟩ := c.exists_colorAt hget (.inl (List.cons_ne_nil _ _))
  have hcolor : n.color = some color :=
    (Node.color_or_below hfound).resolve_right fun hbelow => hbelow.1 hchildren
  refine ⟨allows_of_flat hflat hname, Node.shape_eq_leaf_iff.2 ⟨?_, hchildren⟩⟩
  rw [hcolor]
  rfl

end Chapter

/-! ## Well-shaped trees -/

/-- What the tree of a block is like, node by node, beside the visits of the analysis. -/
structure Node.WellShaped (tree : Node) (block : String) (visits : List Visit) : Prop where
  /-- No node below the root is without color and children. -/
  filled : ∀ path n, tree.get? path = some n → path ≠ [] → n.shape ≠ .empty
  /-- Where the tree ends, there is a color. -/
  ends : ∀ path n, tree.get? path = some n → path ≠ [] → n.children = [] →
    ∃ color, n.color = some color
  /-- Below a node without color there is one, if it is not a root without children. -/
  leads : ∀ path n, tree.get? path = some n → path ≠ [] ∨ n.children ≠ [] → n.color = none →
    ∃ name below color, n.colorAt (name :: below) = some color
  /-- The children of a node have different names, so a path leads to every node. -/
  distinct : ∀ path n, tree.get? path = some n → n.children.keys.Nodup
  /-- Each name is an identifier, without dots, and not the name for a node's own color. -/
  names : ∀ path n, tree.get? path = some n → ∀ name ∈ n.children.keys,
    Lexeme .ident name.toList ∧ '.' ∉ name.toList ∧ name ≠ colorKey
  /-- The terminal colors have no colors below them, and their names are known. -/
  terminal : block = ansiName →
    ∀ child ∈ tree.children, child.1 ∈ ansiNames ∧ child.2.shape = .leaf
  /-- The children are those that an attribute reaches. -/
  reached : ∀ path n, tree.get? path = some n → ∀ name,
    name ∈ n.children.keys ↔ ∃ v, FirstBelow visits (block :: path ++ [name]) v
  /-- The children stand in the order of the source of the first attributes that reach them. -/
  ordered : ∀ path n, tree.get? path = some n → n.children.keys.Pairwise fun name other =>
    ∀ v w, FirstBelow visits (block :: path ++ [name]) v →
      FirstBelow visits (block :: path ++ [other]) w → v.item.span.start < w.item.span.start

namespace Analysis

variable {table : BlockTable} {body : Body} {source : String} {c : Chapter} {v : Visit}
  {path : List String} {name : String}

/-- What reaches a node of a block is a visit to this block. -/
theorem mem_chapter_of_reaches (hnames : (table.map BlockRule.name).Nodup)
    (hc : c ∈ chapters table body) (hv : v ∈ visits table body)
    (hreaches : v.Reaches (c.rule.name :: path)) : v ∈ c.visits := by
  obtain ⟨e, he, hvisit⟩ := mem_visits.1 hv
  have hroot := hreaches.2
  rw [e.tour.nodePath_eq hvisit, List.cons_prefix_cons] at hroot
  have hname : c.rule.name = e.rule.name := hroot.1
  have hce : c = e := eq_of_ruleName hnames he hc hname
  rwa [hce]

theorem start_of_reaches (hc : c ∈ chapters table (Body.read source).items) (hv : v ∈ c.visits)
    (hreaches : v.Reaches path) : v.item.span.start = v.item.name.span.start := by
  obtain ⟨⟨a, color, ha⟩, -⟩ := hreaches
  have hstart := start_of_visited hc hv ha.1
  rw [← hstart, ha.1]
  rfl

/-- **The children of a node stand in the order of the source.** -/
theorem ordered_childNames (hnames : (table.map BlockRule.name).Nodup)
    (hc : c ∈ chapters table (Body.read source).items) (path : List String) :
    (c.tree.childNames path).Pairwise fun name other =>
      ∀ v w, FirstBelow (visits table (Body.read source).items)
          (c.rule.name :: path ++ [name]) v →
        FirstBelow (visits table (Body.read source).items) (c.rule.name :: path ++ [other]) w →
          v.item.span.start < w.item.span.start := by
  rw [c.childNames_tree]
  refine (pairwise_eraseDups_filterMap (visits_ordered hc)).imp ?_
  intro name other hbefore v w hv hw
  have hwvisit := mem_chapter_of_reaches hnames hc hw.visited hw.reaches
  obtain ⟨u, hu, hnext, hlt⟩ := hbefore w hwvisit ((Chapter.next?_eq_some_iff hwvisit).2 hw.reaches)
  have hureaches := (Chapter.next?_eq_some_iff hu).1 hnext
  have hfirst := hv.first u (mem_visits.2 ⟨c, hc, hu⟩) hureaches
  have hustart := start_of_reaches hc hu hureaches
  have hwstart := start_of_reaches hc hwvisit hw.reaches
  omega

/-- The names in a tree are identifiers, and none of them is `color`. -/
theorem name_of_mem_childNames (hnames : (table.map BlockRule.name).Nodup)
    (hmeta : metaName ∉ table.map BlockRule.name)
    (hc : c ∈ chapters table (Body.read source).items) (hrule : c.rule.ReservesColor)
    (hname : name ∈ c.tree.childNames path) :
    Lexeme .ident name.toList ∧ '.' ∉ name.toList ∧ name ≠ colorKey := by
  obtain ⟨v, hv, ⟨a, color, ha⟩, hprefix⟩ := Chapter.mem_childNames_tree_iff.1 hname
  have hroot := c.tour.nodePath_eq hv
  have hmem : name ∈ v.nodePath := hprefix.subset (by simp)
  have hword := isWord_of_nodePath hnames hmeta (mem_visits.2 ⟨c, hc, hv⟩) name hmem
  refine ⟨hword, (isSegment_of_word hword).2, ?_⟩
  rintro rfl
  rw [hroot] at hprefix
  have hbelow : path ++ [colorKey] <+: v.nodePath.tail := (List.prefix_cons_inj _).1 hprefix
  exact c.tour.color_not_mem_nodePath hrule hv ha (hbelow.subset (by simp))

/-- The tree of a chapter of a source is well shaped. -/
theorem wellShaped_tree (hc : c ∈ chapters .standard (Body.read source).items) :
    c.tree.WellShaped c.rule.name (visits .standard (Body.read source).items) := by
  have hnames := BlockTable.proper_standard.names
  have hmeta : metaName ∉ BlockTable.standard.map BlockRule.name := by decide
  have hrule := rule_mem_of_mem_chapters hc
  have hkeys : ∀ path n, c.tree.get? path = some n → n.children.keys = c.tree.childNames path :=
    fun path n hn => (Node.childNames_of_get? hn).symm
  have hdistinct : ∀ path n, c.tree.get? path = some n → n.children.keys.Nodup := by
    intro path n hn
    rw [hkeys path n hn, c.childNames_tree]
    exact nodup_eraseDups _
  refine ⟨?filled, ?ends, ?leads, hdistinct, ?names, ?terminal, ?reached, ?ordered⟩
  case filled =>
    intro path n hn hpath hempty
    obtain ⟨hcolor, hchildren⟩ := Node.shape_eq_empty_iff.1 hempty
    obtain ⟨rest, color, hfound⟩ := c.exists_colorAt hn (.inl hpath)
    rcases Node.color_or_below hfound with hown | ⟨hsome, -⟩
    · rw [hcolor] at hown
      cases hown
    · exact hsome hchildren
  case ends =>
    intro path n hn hpath hchildren
    obtain ⟨rest, color, hfound⟩ := c.exists_colorAt hn (.inl hpath)
    exact ⟨color, (Node.color_or_below hfound).resolve_right fun hbelow => hbelow.1 hchildren⟩
  case leads =>
    intro path n hn hroot hcolor
    obtain ⟨rest, color, hfound⟩ := c.exists_colorAt hn hroot
    rcases Node.color_or_below hfound with hown | ⟨-, name, below, hbelow⟩
    · rw [hcolor] at hown
      cases hown
    · exact ⟨name, below, color, hbelow⟩
  case names =>
    intro path n hn name hname
    rw [hkeys path n hn] at hname
    exact name_of_mem_childNames hnames hmeta hc (BlockTable.proper_standard.reserves _ hrule) hname
  case terminal =>
    intro hblock child hchild
    have hansi : c.rule.nesting = false ∧ c.rule.allowedNames = some ansiNames := by
      have hstandard : ∀ rule ∈ BlockTable.standard, rule.name = ansiName →
          rule.nesting = false ∧ rule.allowedNames = some ansiNames := by decide
      exact hstandard _ hrule hblock
    obtain ⟨hallows, hleaf⟩ := Chapter.leaf_of_flat hansi.1 hchild (hdistinct [] _ rfl)
    rw [BlockRule.allows, hansi.2] at hallows
    exact ⟨List.contains_iff_mem.1 hallows, hleaf⟩
  case reached =>
    intro path n hn name
    rw [hkeys path n hn, Chapter.mem_childNames_tree_iff]
    constructor
    · rintro ⟨v, hv, hreaches⟩
      exact exists_firstBelow (mem_visits.2 ⟨c, hc, hv⟩) hreaches
    · rintro ⟨v, hfirst⟩
      exact ⟨v, mem_chapter_of_reaches hnames hc hfirst.visited hfirst.reaches, hfirst.reaches⟩
  case ordered =>
    intro path n hn
    rw [hkeys path n hn]
    exact ordered_childNames hnames hc path

/-- The trees of the analysis of a source have the colors of all attributes that resolve, and are
well shaped. -/
structure WellShaped (a : Analysis) (source : String) : Prop where
  colored : ∀ v ∈ visits .standard (Body.read source).items, ∀ b color,
    v.ResolvesTo b color → a.scopes.colorAt v.nodePath = some color
  trees : ∀ scope ∈ a.scopes,
    scope.2.WellShaped scope.1 (visits .standard (Body.read source).items)

/-- **The trees of every source are well shaped.** -/
theorem wellShaped (source : String) : (ofSource .standard source).WellShaped source := by
  have hnames := BlockTable.proper_standard.names
  constructor
  case colored =>
    intro v hv a color ha
    exact (colorAt_scopes hnames).2 ⟨v, hv, ⟨a, ha⟩, rfl⟩
  case trees =>
    intro scope hscope
    have hscopes : (ofSource .standard source).scopes =
        (chapters .standard (Body.read source).items).map Chapter.scope := scopes_eq hnames
    rw [hscopes] at hscope
    obtain ⟨c, hc, rfl⟩ := List.mem_map.1 hscope
    exact wellShaped_tree hc

/-- A palette with an empty block, a block in which nothing resolves, and a color with another one
below it, which comes first. -/
def sparseSource : String :=
  "palette \x7b\n  bare \x7b\n  \x7d\n  lost \x7b\n    far = palette.away\n  \x7d\n" ++
    "  sea \x7b\n    deep = #112233\n    color = #445566\n  \x7d\n  sky = palette.sea\n\x7d\n"

example : (ofSource .standard sparseSource).scopes.map (fun scope =>
    (scope.1, scope.2.childNames [], scope.2.childNames ["sea"], scope.2.colorsFrom [])) =
      [("palette", ["sea", "sky"], ["deep"],
        [(["sea"], ⟨0x44, 0x55, 0x66⟩), (["sea", "deep"], ⟨0x11, 0x22, 0x33⟩),
          (["sky"], ⟨0x44, 0x55, 0x66⟩)])] := by
  decide +kernel

end Analysis

end ColorTheme

import ColorTheme.Proofs.Walk.Tour

/-!
# The tree that a tour leaves

The tree of a block holds what the visits so far have colored, and nothing else.

* `Tour.eq_of_nodePath` : no two attributes color the same node, so no color is overwritten.
* `Tour.colorAt_iff` : a node has the color that an attribute for it resolved to, and no other.
* `Tour.reservesColor` : no node is called `color`.
-/

set_option autoImplicit false

namespace ColorTheme

/-- The path of the node that the item stands for: of the block around it if the item is called
`color` and blocks may stand in it, and else its own. -/
def Visit.nodePath (v : Visit) : Path :=
  if v.rule.nesting = true ∧ v.item.name.name = colorKey then v.enclosing else v.path

/-- The visit is to the attribute, and its value resolves to the color. -/
def Visit.ResolvesTo (v : Visit) (a : Attribute) (c : Color) : Prop :=
  v.item = .assignment a ∧
    v.verdict = .colored v.path a.name.span ⟨a.value.span, c, a.value.isReference⟩

/-- The node that the visit colors, and its color. -/
def Visit.mark? (v : Visit) : Option (List String × Color) :=
  match v.verdict with
  | .colored _ _ location => some (v.nodePath.tail, location.color)
  | _ => none

/-- No attribute of the block can make a node called `color`: either `color` is the own color of
a block, or it is not allowed. -/
def BlockRule.ReservesColor (rule : BlockRule) : Prop :=
  rule.nesting = true ∨ rule.allows colorKey = false

theorem BlockRule.target_concat (rule : BlockRule) (enclosing : Path) (name : String) :
    rule.target (enclosing ++ [name]) =
      (if rule.nesting = true ∧ name = colorKey then enclosing else enclosing ++ [name]).tail := by
  unfold BlockRule.target
  rw [List.getLast?_concat, List.dropLast_concat]
  by_cases h : rule.nesting = true ∧ name = colorKey
  · rw [if_pos h, if_pos ⟨h.1, congrArg some h.2⟩]
  · rw [if_neg h, if_neg (fun hk => h ⟨hk.1, Option.some.inj hk.2⟩)]

/-- A verdict on the visited item changes the tree by the mark of the visit. -/
theorem Visit.tree_record (v : Visit) (p : Progress)
    (h : ∀ path name location, v.verdict = .colored path name location → path = v.path) :
    (p.record v.rule v.verdict).tree = p.tree.painted v.mark?.toList := by
  cases hv : v.verdict with
  | colored path name location =>
    simp only [Progress.record, Visit.mark?, hv, h path name location hv, Visit.path,
      BlockRule.target_concat]
    rfl
  | flagged _ _ _ _ | opened _ _ | noted _ _ _ | rejected _ _ | incomplete _ =>
    simp only [Progress.record, Visit.mark?, hv]
    rfl

namespace Tour

variable {frame : Frame} {start : Progress} {items : List Item}
  {visits before behind : List Visit} {v w : Visit} {a : Attribute} {c : Color}

theorem resolvesTo_of_colored (h : Tour frame start items visits) (hv : v ∈ visits) {path : Path}
    {name : Span} {location : ColorLocation} (hc : v.verdict = .colored path name location) :
    ∃ a, v.ResolvesTo a location.color ∧ path = v.path ∧
      location = ⟨a.value.span, location.color, a.value.isReference⟩ ∧
      frame.rule.allows a.name.name = true := by
  obtain ⟨p, hp⟩ := h.exists_judged hv
  rw [hc] at hp
  obtain ⟨a, hitem, hpath, hname, hlocation, hallows, -⟩ := hp.of_colored
  have hvpath : path = v.path := by rw [hpath, Visit.path, hitem]; rfl
  refine ⟨a, ⟨hitem, ?_⟩, hvpath, hlocation, hallows⟩
  rw [hc, hvpath, hname, ← hlocation]

/-- The node path of a visited attribute begins with the block. -/
theorem nodePath_eq (h : Tour frame start items visits) (hv : v ∈ visits) :
    v.nodePath = frame.rule.name :: v.nodePath.tail := by
  obtain ⟨names, henc, -⟩ := h.enclosing_eq hv
  unfold Visit.nodePath
  split
  · rw [henc]; rfl
  · rw [Visit.path, henc]; rfl

/-- An attribute of a block that holds no blocks stands for the node of its own name. -/
theorem nodePath_of_flat (h : Tour frame start items visits) (hflat : frame.rule.nesting = false)
    (hv : v ∈ visits) : v.nodePath = [frame.rule.name, v.item.name.name] := by
  obtain ⟨henclosing, -⟩ := h.mem_of_flat hflat hv
  have hrule : v.rule = frame.rule := h.rule v hv
  unfold Visit.nodePath
  rw [if_neg (by rw [hrule, hflat]; rintro ⟨h, -⟩; cases h), Visit.path, henclosing]
  rfl

theorem mark?_eq_some_iff (h : Tour frame start items visits) (hv : v ∈ visits) {q : List String} :
    v.mark? = some (q, c) ↔ (∃ a, v.ResolvesTo a c) ∧ v.nodePath = frame.rule.name :: q := by
  constructor
  · intro hm
    unfold Visit.mark? at hm
    split at hm
    · rename_i path name location hc
      obtain ⟨a, ha, -⟩ := h.resolvesTo_of_colored hv hc
      cases hm
      exact ⟨⟨a, ha⟩, h.nodePath_eq hv⟩
    · cases hm
  · rintro ⟨⟨a, ha⟩, hq⟩
    simp only [Visit.mark?, ha.2, hq, List.tail_cons]

/-- The tree after a tour is the tree before it with the marks of the visits. -/
theorem tree_after (h : Tour frame start items visits) :
    (start.after frame.rule visits).tree = start.tree.painted (visits.filterMap Visit.mark?) := by
  induction visits using List.reverseRecOn with
  | nil => rfl
  | append_singleton visits v ih =>
    have hv : v ∈ visits ++ [v] := by simp
    have hlast : [v].filterMap Visit.mark? = v.mark?.toList := by
      cases hm : v.mark? <;> simp [hm]
    rw [Progress.after_append, List.filterMap_append, Node.painted_append, ← ih h.beginning, hlast,
      Progress.after_cons, Progress.after_nil, ← h.rule v hv]
    refine v.tree_record _ fun path name location hc => ?_
    obtain ⟨a, -, hpath, -⟩ := h.resolvesTo_of_colored hv hc
    exact hpath

/-- The path of a block around a visited item is not the path of a colored attribute. -/
theorem enclosing_ne_path (h : Tour frame start items visits) (hv : v ∈ visits) (hw : w ∈ visits)
    (hwc : w.ResolvesTo a c) : v.enclosing ≠ w.path := by
  intro heq
  obtain ⟨before, behind, rfl⟩ := List.append_of_mem hv
  rcases h.nested before v behind rfl with ⟨hroot, -⟩ | ⟨b, hb, _, _, _, name, -, -, hopened⟩
  · obtain ⟨names, henc, -⟩ := h.enclosing_eq hw
    rw [hroot, Visit.path, henc] at heq
    simp at heq
  · have hb : b ∈ before ++ v :: behind := List.mem_append_left _ hb
    have htb : b.verdict.taken? = some w.path := by rw [hopened, heq]; rfl
    have htw : w.verdict.taken? = some w.path := by rw [hwc.2]; rfl
    obtain rfl := h.eq_of_taken hb hw htb htw
    rw [hwc.2] at hopened
    cases hopened

/-- **No two attributes color the same node.**  A node has two spellings, `x = …` and
`x { color = … }`; whichever comes first takes the path of the other. -/
theorem eq_of_nodePath (h : Tour frame start items visits) (hv : v ∈ visits) (hw : w ∈ visits)
    {b : Attribute} {d : Color} (hvc : v.ResolvesTo a c) (hwc : w.ResolvesTo b d)
    (heq : v.nodePath = w.nodePath) : v = w := by
  have htv : v.verdict.taken? = some v.path := by rw [hvc.2]; rfl
  have htw : w.verdict.taken? = some w.path := by rw [hwc.2]; rfl
  have hpath : v.path = w.path := by
    unfold Visit.nodePath at heq
    split at heq
    · rename_i hown
      split at heq
      · rename_i hown'
        rw [Visit.path, Visit.path, heq, hown.2, hown'.2]
      · exact absurd heq (h.enclosing_ne_path hv hw hwc)
    · split at heq
      · exact absurd heq.symm (h.enclosing_ne_path hw hv hvc)
      · exact heq
  exact h.eq_of_taken hv hw htv (hpath ▸ htw)

theorem marks_nodup (h : Tour frame start items visits) :
    ((visits.filterMap Visit.mark?).map Prod.fst).Nodup := by
  rw [List.Nodup, List.pairwise_map, List.pairwise_filterMap]
  refine h.taken_pairwise.imp_of_mem fun {v w} hv hw htaken m hm m' hm' heq => ?_
  obtain ⟨⟨a, ha⟩, hq⟩ := (h.mark?_eq_some_iff hv).1 hm
  obtain ⟨⟨b, hb⟩, hq'⟩ := (h.mark?_eq_some_iff hw).1 hm'
  obtain rfl := h.eq_of_nodePath hv hw ha hb (by rw [hq, hq', heq])
  exact htaken v.path (by rw [ha.2]; rfl) (by rw [ha.2]; rfl)

/-- **A node has the color that an attribute for it resolved to, and no other.** -/
theorem colorAt_iff (h : Tour frame start items visits) (hblank : start.tree = .blank)
    (q : List String) (c : Color) :
    (start.after frame.rule visits).tree.colorAt q = some c ↔
      ∃ v ∈ visits, (∃ a, v.ResolvesTo a c) ∧ v.nodePath = frame.rule.name :: q := by
  rw [h.tree_after, hblank, Node.colorAt_painted h.marks_nodup, List.mem_filterMap]
  constructor
  · rintro ⟨v, hv, hm⟩
    exact ⟨v, hv, (h.mark?_eq_some_iff hv).1 hm⟩
  · rintro ⟨v, hv, hc⟩
    exact ⟨v, hv, (h.mark?_eq_some_iff hv).2 hc⟩

/-- An attribute called `color` has a color only where it is that of the block around it. -/
theorem nesting_of_color (h : Tour frame start items visits) (hrule : frame.rule.ReservesColor)
    (hv : v ∈ visits) (hc : v.ResolvesTo a c) (hname : v.item.name.name = colorKey) :
    v.rule.nesting = true := by
  obtain ⟨b, hb, -, -, hallows⟩ := h.resolvesTo_of_colored hv hc.2
  rw [h.rule v hv]
  refine hrule.resolve_right fun hnot => ?_
  rw [hb.1] at hname
  rw [show b.name.name = colorKey from hname, hnot] at hallows
  cases hallows

/-- **The path of a colored attribute** is that of its node, or if it is called `color`, this name
behind that of its node. -/
theorem path_eq (h : Tour frame start items visits) (hrule : frame.rule.ReservesColor)
    (hv : v ∈ visits) (hc : v.ResolvesTo a c) :
    v.path = if v.item.name.name = colorKey then v.nodePath ++ [colorKey] else v.nodePath := by
  unfold Visit.nodePath
  split
  · rename_i hname
    rw [if_pos ⟨h.nesting_of_color hrule hv hc hname, hname⟩, Visit.path, hname]
  · rename_i hname
    rw [if_neg fun hown => hname hown.2]

/-- A colored node and the nodes on the way to it are not called `color`. -/
theorem color_not_mem_nodePath (h : Tour frame start items visits) (hrule : frame.rule.ReservesColor)
    (hv : v ∈ visits) (hc : v.ResolvesTo a c) : colorKey ∉ v.nodePath.tail := by
  obtain ⟨names, henc, hnames, -⟩ := h.enclosing_eq hv
  unfold Visit.nodePath
  split
  · rwa [henc]
  · rename_i hown
    have hname : v.item.name.name ≠ colorKey :=
      fun hname => hown ⟨h.nesting_of_color hrule hv hc hname, hname⟩
    simp [Visit.path, henc, hnames, Ne.symm hname]

/-- A node of the tree, but for its root, is on the way to an attribute that resolves to a
color. -/
theorem exists_below (h : Tour frame start items visits) (hblank : start.tree = .blank)
    {q : List String} (hnode : ((start.after frame.rule visits).tree.get? q).isSome)
    (hq : q ≠ []) :
    ∃ v ∈ visits, (∃ a c, v.ResolvesTo a c) ∧ frame.rule.name :: q <+: v.nodePath := by
  rw [h.tree_after, hblank, Node.get?_painted_isSome] at hnode
  obtain ⟨⟨path, c⟩, hm, hprefix⟩ := hnode.resolve_left hq
  obtain ⟨v, hv, hmark⟩ := List.mem_filterMap.1 hm
  obtain ⟨⟨a, ha⟩, hpath⟩ := (h.mark?_eq_some_iff hv).1 hmark
  refine ⟨v, hv, ⟨a, c, ha⟩, ?_⟩
  rw [hpath]
  exact List.cons_prefix_cons.2 ⟨rfl, hprefix⟩

/-- **No node of the tree is called `color`.** -/
theorem reservesColor (h : Tour frame start items visits) (hblank : start.tree = .blank)
    (hrule : frame.rule.ReservesColor) :
    (start.after frame.rule visits).tree.ReservesColor := by
  intro q
  by_contra hne
  obtain ⟨v, hv, ⟨a, c, ha⟩, hbelow⟩ :=
    h.exists_below hblank (Option.isSome_iff_ne_none.2 hne) (by simp)
  rw [h.nodePath_eq hv, List.cons_prefix_cons] at hbelow
  have hcolor : colorKey ∈ q ++ [colorKey] := by simp
  exact h.color_not_mem_nodePath hrule hv ha (hbelow.2.subset hcolor)

end Tour

end ColorTheme

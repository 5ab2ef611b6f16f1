import ColorTheme.Proofs.Account.Flags
import ColorTheme.Proofs.Compare.Reflagged
import ColorTheme.Proofs.Compare.Repainted

/-!
# The styles of a source

Colors and flags are met in one walk through the `syntax` block, and they are put together at its
end, by the paths of the groups.

* `Analysis.colors_styles` : the styles are the listing of the `syntax` tree.
* `Analysis.flag_iff`, `Analysis.setsTrue_of_isGroup` : a flag is set on a group by the first
  attribute of its name, if that is the word `true`.
* `Analysis.span_ne_of_isFlag`, `Analysis.group_of_node` : no color and no node comes from a flag.
* `Analysis.styles_exact` : all this for every source, and flags have no part in anything else.
-/

set_option autoImplicit false

namespace ColorTheme

/-- The name of the block whose colors have styles. -/
def syntaxName : String := "syntax"

namespace Finding

/-- A block inside of the `syntax` block that is accepted, with its path and its items. -/
structure IsGroup (f : Finding) (group : List String) (items : Body) : Prop where
  accepted : f.Accepted
  path : f.path = syntaxName :: group
  nested : group ≠ []
  item : ∃ kind span, f.item = .block kind items span

/-- An attribute inside of a group of the `syntax` block, with the name of a flag. -/
structure IsFlag (f : Finding) (b : Attribute) (flag : StyleFlag) : Prop where
  item : f.item = .assignment b
  name : b.name.name = flag.name
  nested : ∃ group, group ≠ [] ∧ f.enclosing = syntaxName :: group

/-- An attribute of the group that evaluated to `true` and sets the flag. -/
structure SetsTrue (f : Finding) (group : List String) (b : Attribute) (flag : StyleFlag) :
    Prop where
  item : f.item = .assignment b
  enclosing : f.enclosing = syntaxName :: group
  verdict : f.verdict = .flagged f.path b.name.span flag true

theorem IsGroup.enclosing {f : Finding} {group : List String} {items : Body}
    (h : f.IsGroup group items) :
    f.enclosing.head? = some syntaxName := by
  have hpath := h.path
  unfold Finding.path at hpath
  cases henclosing : f.enclosing with
  | nil =>
    rw [henclosing] at hpath
    exact absurd (List.cons.inj hpath).2.symm h.nested
  | cons first rest =>
    rw [henclosing] at hpath
    exact congrArg some (List.cons.inj hpath).1

end Finding

namespace Analysis

/-- What the styles of a source are. -/
structure StylesExact (source : String) : Prop where
  /-- The keys of the styles, in order, are the paths in the listing of the `syntax` tree, each with
  the color found there. -/
  listed : (ofSource .standard source).styles.map (fun entry => (entry.1, entry.2.color)) =
    (((ofSource .standard source).scope? syntaxName).map Node.flatten).getD []
  /-- A key is the path of one node of the tree, and the node has the color. -/
  keyed : ∀ entry ∈ (ofSource .standard source).styles, ∃! group : List String,
    (group ≠ [] ∧ (∀ name ∈ group, IsSegment name) ∧ entry.1 = dotted group) ∧
      (ofSource .standard source).scopes.colorAt (syntaxName :: group) = some entry.2.color
  /-- A style has a flag if and only if the group that is accepted at its path has, as the first
  attribute of the name of the flag, one that evaluated to `true`. -/
  flags : ∀ entry ∈ (ofSource .standard source).styles, ∀ group : List String,
    group ≠ [] → (∀ name ∈ group, IsSegment name) → entry.1 = dotted group → ∀ flag : StyleFlag,
    (entry.2.has flag = true ↔
      ∃ f ∈ findings .standard (Body.read source).items, ∃ items b, f.IsGroup group items ∧
        items.attributes.find? (fun a => a.name.name == flag.name) = some b ∧
        ∃ g ∈ findings .standard (Body.read source).items, g.SetsTrue group b flag)
  /-- The first attribute of that name is evaluated to `true` if and only if it is the word `true`,
  and no block of the same name stands before it: then it would not be evaluated. -/
  evaluated : ∀ f ∈ findings .standard (Body.read source).items, ∀ group items b flag,
    f.IsGroup group items →
    items.attributes.find? (fun a => a.name.name == flag.name) = some b →
    ((∃ g ∈ findings .standard (Body.read source).items, g.SetsTrue group b flag) ↔
      (∃ span, b.value = .truth true span) ∧
        ∃ front behind, items = front ++ .assignment b :: behind ∧
          ∀ i ∈ front, i.name.name ≠ flag.name)
  /-- No color comes from a flag. -/
  colorless : ∀ f ∈ findings .standard (Body.read source).items, ∀ b flag, f.IsFlag b flag →
    ∀ location ∈ (ofSource .standard source).colors, location.span ≠ b.value.span
  /-- No node of the tree comes from a flag: a node of its path is that of a group, and the flag is
  a second item of this path, which is rejected because of its name. -/
  nodeless : ∀ f ∈ findings .standard (Body.read source).items, ∀ b flag, f.IsFlag b flag →
    ∀ tree, (ofSource .standard source).scope? syntaxName = some tree →
    (tree.get? f.path.tail).isSome → f.verdict.taken? = none ∧
      ∃ g ∈ findings .standard (Body.read source).items, ∃ items, g.IsGroup f.path.tail items
  /-- With any other value of a flag, all trees and all colors are the same, and so are the keys of
  the styles and their colors. -/
  unchanged : ∀ f ∈ findings .standard (Body.read source).items, ∀ b flag, f.IsFlag b flag →
    ∀ e flaws, (ofSource .standard source).SameColors
      (ofBody .standard (revalueAll b.name.span e (Body.read source).items) flaws)

variable {source : String} {body : Body} {c : Chapter} {f : Finding} {v : Visit}
  {group : List String} {items : Body} {b : Attribute} {flag : StyleFlag}

theorem one_lt_length (hgroup : group ≠ []) : 1 < (syntaxName :: group).length := by
  rw [List.length_cons]
  exact Nat.succ_lt_succ (List.length_pos_of_ne_nil hgroup)

theorem regular_of_mem_chapters (hc : c ∈ chapters .standard body) : Regular .standard body :=
  ⟨by decide, by decide, hasPalette_of_mem_chapters hc⟩

/-- In the `syntax` block there are groups with flags, and all names are allowed. -/
theorem styles_of_name (hc : c ∈ chapters .standard body) (hname : c.rule.name = syntaxName) :
    c.rule.Styles := by
  have hrules : ∀ rule ∈ BlockTable.standard, rule.name = syntaxName →
      rule.styled = true ∧ rule.nesting = true ∧ rule.allowedNames = none := by
    decide
  obtain ⟨hstyled, hnesting, hnone⟩ := hrules c.rule (rule_mem_of_mem_chapters hc) hname
  refine ⟨hstyled, hnesting, fun name => ?_⟩
  unfold BlockRule.allows
  rw [hnone]

/-- It is the only such block. -/
theorem name_of_styled (hc : c ∈ chapters .standard body) (hstyled : c.rule.styled = true) :
    c.rule.name = syntaxName := by
  have hrules : ∀ rule ∈ BlockTable.standard, rule.styled = true → rule.name = syntaxName := by
    decide
  exact hrules c.rule (rule_mem_of_mem_chapters hc) hstyled

/-! ## The styles and the tree -/

/-- The styles are read off the tree of the `syntax` block and the log of its walk. -/
theorem styles_eq_stylesOf (hc : c ∈ chapters .standard (Body.read source).items)
    (hname : c.rule.name = syntaxName) :
    (ofSource .standard source).styles = stylesOf c.log c.rule.name c.tree :=
  styles_eq (by decide) (by decide) (by decide) hc (styles_of_name hc hname).styled

theorem styles_eq_nil (h : (ofSource .standard source).scope? syntaxName = none) :
    (ofSource .standard source).styles = [] := by
  have hnone : ∀ c ∈ chapters .standard (Body.read source).items, c.styles = [] := by
    intro c hc
    refine if_neg fun hstyled => ?_
    have hscope : (ofSource .standard source).scope? syntaxName = some c.tree :=
      (get?_scopes (by decide) syntaxName c.tree).2 ⟨c, hc, name_of_styled hc hstyled, rfl⟩
    exact absurd (h.symm.trans hscope) nofun
  rw [ofSource, styles_ofBody, List.flatMap_eq_nil_iff.2 hnone]
  rfl

theorem colors_styles (source : String) :
    (ofSource .standard source).styles.map (fun entry => (entry.1, entry.2.color)) =
      (((ofSource .standard source).scope? syntaxName).map Node.flatten).getD [] := by
  cases hscope : (ofSource .standard source).scope? syntaxName with
  | none =>
    rw [styles_eq_nil hscope]
    rfl
  | some tree =>
    obtain ⟨c, hc, hname, rfl⟩ := (get?_scopes (by decide) syntaxName tree).1 hscope
    rw [styles_eq_stylesOf hc hname, colors_stylesOf]
    rfl

/-- The names along a path of the tree stand in the source. -/
theorem isSegment_of_colorAt (hc : c ∈ chapters .standard (Body.read source).items)
    {color : Color} (h : c.tree.colorAt group = some color) : ∀ name ∈ group, IsSegment name := by
  obtain ⟨v, hv, -, hpath⟩ := (c.tour.colorAt_iff rfl _ _).1 h
  have hnames := isSegment_of_nodePath (by decide) (by decide) (mem_visits.2 ⟨c, hc, hv⟩)
  rw [hpath] at hnames
  exact fun name hname => hnames name (List.mem_cons_of_mem _ hname)

/-- A style is that of a colored node inside of the `syntax` block. -/
theorem exists_group_of_style {entry : String × Style}
    (h : entry ∈ (ofSource .standard source).styles) :
    ∃ c ∈ chapters .standard (Body.read source).items, c.rule.name = syntaxName ∧
      ∃ group color, group ≠ [] ∧ (∀ name ∈ group, IsSegment name) ∧
        c.tree.colorAt group = some color ∧ entry = (dotted group, c.styleAt group color) := by
  cases hscope : (ofSource .standard source).scope? syntaxName with
  | none =>
    rw [styles_eq_nil hscope] at h
    cases h
  | some tree =>
    obtain ⟨c, hc, hname, rfl⟩ := (get?_scopes (by decide) syntaxName tree).1 hscope
    rw [styles_eq_stylesOf hc hname] at h
    obtain ⟨⟨group, color⟩, hcolored, hentry⟩ := List.mem_filterMap.1 h
    dsimp only at hentry
    split at hentry
    · cases hentry
    · rename_i hshown
      rw [c.mem_colorsFrom] at hcolored
      have hsegments := isSegment_of_colorAt hc hcolored
      rw [Node.isEmpty_listed hsegments] at hshown
      rw [Node.listed_eq_dotted hsegments] at hentry
      exact ⟨c, hc, hname, group, color, hshown, hsegments, hcolored,
        (Option.some.inj hentry).symm⟩

/-! ## Groups and flags -/

/-- The groups that are accepted are those that the walk through `syntax` opens. -/
theorem isGroup_iff (hc : c ∈ chapters .standard body) (hname : c.rule.name = syntaxName)
    (hgroup : group ≠ []) :
    (∃ f ∈ findings .standard body, f.IsGroup group items) ↔
      ∃ v ∈ c.visits, v.OpensAt (syntaxName :: group) items := by
  rw [← accepted_block_iff (regular_of_mem_chapters hc) hc (by rw [hname]; rfl)
    (one_lt_length hgroup)]
  constructor
  · rintro ⟨f, hf, h⟩
    exact ⟨f, hf, h.accepted, h.path, h.item⟩
  · rintro ⟨f, hf, haccepted, hpath, hitem⟩
    exact ⟨f, hf, haccepted, hpath, hgroup, hitem⟩

/-- The attributes that set a flag are those that set it in the walk through `syntax`. -/
theorem setsTrue_iff (hc : c ∈ chapters .standard body) (hname : c.rule.name = syntaxName) :
    (∃ g ∈ findings .standard body, g.SetsTrue group b flag) ↔
      ∃ v ∈ c.visits, v.enclosing = syntaxName :: group ∧ v.SetsTo b flag true := by
  constructor
  · rintro ⟨g, hg, h⟩
    obtain ⟨v, hv, rfl⟩ := exists_visit_of_head (regular_of_mem_chapters hc) hc hg
      (by rw [h.enclosing, hname]; rfl)
    exact ⟨v, hv, h.enclosing, h.item, h.verdict⟩
  · rintro ⟨v, hv, henclosing, hitem, hverdict⟩
    exact ⟨v.finding, finding_mem_of_visit hc hv, hitem, henclosing, hverdict⟩

/-- The first attribute of a name, if no item in front of it has the name. -/
theorem find?_attributes {front behind : List Item} {name : String} (hb : b.name.name = name)
    (hfront : ∀ i ∈ front, i.name.name ≠ name) :
    (Body.attributes (front ++ .assignment b :: behind)).find? (fun a => a.name.name == name) =
      some b := by
  have hattributes : Body.attributes (front ++ .assignment b :: behind) =
      Body.attributes front ++ b :: Body.attributes behind := List.filterMap_append
  rw [hattributes, List.find?_eq_some_iff_append]
  refine ⟨by simpa using hb, Body.attributes front, Body.attributes behind, rfl, fun a ha => ?_⟩
  have hname : a.name.name ≠ name := hfront _ (Body.mem_attributes.1 ha)
  simpa using hname

/-- **The first attribute of its name sets a flag if it is the word `true`**, and no block of the
name stands before it. -/
theorem setsTrue_of_isGroup (hf : f ∈ findings .standard body) (h : f.IsGroup group items)
    (hb : b.name.name = flag.name) :
    (∃ g ∈ findings .standard body, g.SetsTrue group b flag) ↔
      (∃ span, b.value = .truth true span) ∧
        ∃ front behind, items = front ++ .assignment b :: behind ∧
          ∀ i ∈ front, i.name.name ≠ flag.name := by
  obtain ⟨c, hc, hname, -⟩ := exists_chapter_of_head hf h.enclosing (by decide)
  obtain ⟨v, hv, hopens⟩ := (isGroup_iff hc hname h.nested).1 ⟨f, hf, h⟩
  rw [setsTrue_iff hc hname,
    setsTo_iff (regular_of_mem_chapters hc) hc (styles_of_name hc hname) hv hopens]
  exact and_iff_right hb

/-- **A flag is set on a group by the first attribute of its name.** -/
theorem flag_iff (hc : c ∈ chapters .standard body) (hname : c.rule.name = syntaxName)
    (hgroup : group ≠ []) (flag : StyleFlag) :
    c.log.flag (c.rule.name :: group) flag = true ↔
      ∃ f ∈ findings .standard body, ∃ items b, f.IsGroup group items ∧
        items.attributes.find? (fun a => a.name.name == flag.name) = some b ∧
        ∃ g ∈ findings .standard body, g.SetsTrue group b flag := by
  have hregular := regular_of_mem_chapters hc
  rw [flag_log_iff hregular hc rfl, hname]
  constructor
  · rintro ⟨v, hv, henclosing, b, hset⟩
    obtain ⟨hb, hlength, -⟩ := Chapter.attribute_of_setsTo hv hset
    obtain ⟨opener, hopener, items, hopens, -⟩ := Chapter.exists_opener hv hlength
    rw [henclosing] at hopens
    obtain ⟨f, hf, hisGroup⟩ := (isGroup_iff hc hname hgroup).2 ⟨opener, hopener, hopens⟩
    have hsets := (setsTrue_iff hc hname).2 ⟨v, hv, henclosing, hset⟩
    obtain ⟨-, front, behind, rfl, hfront⟩ := (setsTrue_of_isGroup hf hisGroup hb).1 hsets
    exact ⟨f, hf, _, b, hisGroup, find?_attributes hb hfront, hsets⟩
  · rintro ⟨f, hf, items, b, -, -, hsets⟩
    obtain ⟨v, hv, henclosing, hset⟩ := (setsTrue_iff hc hname).1 hsets
    exact ⟨v, hv, henclosing, b, hset⟩

/-! ## What flags have no part in -/

/-- A flag is visited in the `syntax` block. -/
theorem exists_visit_of_isFlag (hf : f ∈ findings .standard body) (h : f.IsFlag b flag) :
    ∃ c ∈ chapters .standard body, c.rule.name = syntaxName ∧ ∃ v ∈ c.visits, v.finding = f ∧
      1 < v.enclosing.length ∧ c.rule.flag? v.enclosing v.item.name.name = some flag := by
  obtain ⟨group, hgroup, henclosing⟩ := h.nested
  obtain ⟨c, hc, hname, v, hv, rfl⟩ := exists_chapter_of_head hf
    (show f.enclosing.head? = some syntaxName by rw [henclosing]; rfl) (by decide)
  have hlength : 1 < v.enclosing.length := by
    rw [show v.enclosing = _ from henclosing]
    exact one_lt_length hgroup
  refine ⟨c, hc, hname, v, hv, rfl, hlength, ?_⟩
  rw [BlockRule.flag?_eq_some_iff (styles_of_name hc hname).styled hlength,
    show v.item = _ from h.item]
  exact h.name.symm

/-- No color stands at the value of a flag. -/
theorem span_ne_of_isFlag (hf : f ∈ findings .standard (Body.read source).items)
    (h : f.IsFlag b flag) {location : ColorLocation}
    (hlocation : location ∈ (ofSource .standard source).colors) : location.span ≠ b.value.span := by
  obtain ⟨c, hc, -, v, hv, rfl, -, hflag⟩ := exists_visit_of_isFlag hf h
  obtain ⟨w, hw, a, ha, hitem, heq⟩ := exists_visit_of_color hlocation
  obtain ⟨d, hd, hw⟩ := mem_visits.1 hw
  intro hspan
  have hmem := mem_spreadAll_of_mem_findings hf
  rw [h.item] at hmem
  rw [heq] at hspan
  obtain rfl := Body.eq_of_valueStart hmem hitem (congrArg Span.start hspan)
  -- they are one attribute, but a flag in one visit and no flag in the other
  obtain ⟨-, hflags⟩ := onlyFlags_of_flag (regular_of_mem_chapters hc) (nodup_names source) hc hv
    (by rw [hflag]; rfl)
  have hsome := hflags d hd w hw (by rw [ha.1, show v.item = _ from h.item])
  rw [d.tour.rule w hw] at hsome
  rw [show d.frame.rule.flag? _ _ = none from Chapter.flag?_of_resolvesTo hw ha] at hsome
  cases hsome

/-- A node of the path of a flag is that of a group, and then the flag takes no path. -/
theorem group_of_node (hf : f ∈ findings .standard body)
    (h : f.IsFlag b flag) (hc : c ∈ chapters .standard body) (hname : c.rule.name = syntaxName)
    (hnode : (c.tree.get? f.path.tail).isSome) : f.verdict.taken? = none ∧
      ∃ g ∈ findings .standard body, ∃ items, g.IsGroup f.path.tail items := by
  obtain ⟨group, hgroup, henclosing⟩ := h.nested
  obtain ⟨e, he, hename, v, hv, rfl, hlength, hflag⟩ := exists_visit_of_isFlag hf h
  obtain rfl : e = c := eq_of_ruleName (by decide) hc he (hename.trans hname.symm)
  have hpath : v.path = syntaxName :: (group ++ [v.item.name.name]) := by
    rw [Visit.path, show v.enclosing = _ from henclosing]
    rfl
  have htail : v.finding.path.tail = group ++ [v.item.name.name] := by
    show v.path.tail = _
    rw [hpath, List.tail_cons]
  have hnonempty : group ++ [v.item.name.name] ≠ [] := List.append_ne_nil_of_left_ne_nil hgroup _
  rw [htail] at hnode ⊢
  obtain ⟨w, hw, ⟨a, color, ha⟩, hbelow⟩ := e.tour.exists_below rfl hnode hnonempty
  rw [show e.frame.rule.name = _ from hname, ← hpath] at hbelow
  have haround := Chapter.prefix_enclosing_of_flag hflag hw ha hbelow
  have hlong : 1 < v.path.length := by
    rw [Visit.path, List.length_append]
    omega
  obtain ⟨opener, hopener, items, hopens⟩ := Chapter.exists_opensAt hw haround hlong
  refine ⟨Chapter.taken?_eq_none_of_opensAt hv h.item hopener hopens, ?_⟩
  rw [hpath] at hopens
  obtain ⟨g, hg, hisGroup⟩ := (isGroup_iff he hname hnonempty).2 ⟨opener, hopener, hopens⟩
  exact ⟨g, hg, items, hisGroup⟩

/-- **The styles of a source are the listing of its `syntax` tree and its flags**, and the flags
have no part in anything else. -/
theorem styles_exact (source : String) : StylesExact source := by
  constructor
  case listed => exact colors_styles source
  case keyed =>
    intro entry hentry
    obtain ⟨c, hc, hname, group, color, hgroup, hnames, hcolor, rfl⟩ :=
      exists_group_of_style hentry
    refine ⟨group, ⟨⟨hgroup, hnames, rfl⟩, ?_⟩, ?_⟩
    · have hscope : (ofSource .standard source).scopes.get? syntaxName = some c.tree :=
        (get?_scopes (by decide) syntaxName c.tree).2 ⟨c, hc, hname, rfl⟩
      rw [Scopes.colorAt, hscope]
      exact hcolor
    · rintro other ⟨⟨hother, hothers, heq⟩, -⟩
      exact (dotted_inj hnames hothers hgroup hother heq).symm
  case flags =>
    intro entry hentry group hgroup hnames hkey flag
    obtain ⟨c, hc, hname, shown, color, hshown, hsegments, -, rfl⟩ :=
      exists_group_of_style hentry
    obtain rfl := dotted_inj hsegments hnames hshown hgroup hkey
    rw [c.has_styleAt]
    exact flag_iff hc hname hgroup flag
  case evaluated =>
    intro f hf group items b flag hgroup hfirst
    have hb : b.name.name = flag.name := by simpa using List.find?_some hfirst
    exact setsTrue_of_isGroup hf hgroup hb
  case colorless => exact fun f hf b flag h location hlocation => span_ne_of_isFlag hf h hlocation
  case nodeless =>
    intro f hf b flag h tree htree hnode
    obtain ⟨c, hc, hname, rfl⟩ := (get?_scopes (by decide) syntaxName tree).1 htree
    exact group_of_node hf h hc hname hnode
  case unchanged =>
    intro f hf b flag h e flaws
    obtain ⟨c, hc, -, v, hv, rfl, -, hflag⟩ := exists_visit_of_isFlag hf h
    have hsame := sameColors_revalueAll (regular_of_mem_chapters hc) (nodup_names source) hc hv
      (by rw [hflag]; rfl) e
    rw [show v.item = _ from h.item] at hsame
    exact hsame _ flaws

/-- A block with the name of a flag takes the path, so the flag behind it is not set. -/
def namesakeSource : String :=
  "palette \x7b\n\x7d\nsyntax \x7b\n  a \x7b\n    color = #112233\n    italic = true\n" ++
    "    bold \x7b\n      color = #445566\n    \x7d\n    bold = true\n  \x7d\n\x7d\n"

theorem styles_exact_namesakeSource :
    StylesExact namesakeSource ∧
      (ofSource .standard namesakeSource).styles =
        [("a", ⟨⟨0x11, 0x22, 0x33⟩, false, true, false⟩),
          ("a.bold", ⟨⟨0x44, 0x55, 0x66⟩, false, false, false⟩)] ∧
      (∃ f ∈ findings .standard (Body.read namesakeSource).items, ∃ items b,
        f.IsGroup ["a"] items ∧
          items.attributes.find? (fun a => a.name.name == StyleFlag.italic.name) = some b) ∧
      ∃ f ∈ findings .standard (Body.read namesakeSource).items, ∃ b, f.IsFlag b .bold := by
  have hexact := styles_exact namesakeSource
  have hstyles : (ofSource .standard namesakeSource).styles =
      [("a", ⟨⟨0x11, 0x22, 0x33⟩, false, true, false⟩),
        ("a.bold", ⟨⟨0x44, 0x55, 0x66⟩, false, false, false⟩)] := by decide +kernel
  have hflag : ((findings .standard (Body.read namesakeSource).items).any fun f =>
      f.enclosing == ["syntax", "a"] && f.item.name.name == "bold" &&
        f.item.assignment?.isSome) = true := by decide +kernel
  refine ⟨hexact, hstyles, ?_, ?_⟩
  · have hentry : ("a", ⟨⟨0x11, 0x22, 0x33⟩, false, true, false⟩) ∈
        (ofSource .standard namesakeSource).styles := by rw [hstyles]; exact List.mem_cons_self
    have hsegment : ∀ name ∈ ["a"], IsSegment name :=
      List.forall_mem_singleton.2 ⟨by decide, by decide⟩
    obtain ⟨f, hf, items, b, hgroup, hfirst, -⟩ := (hexact.flags _ hentry ["a"] (by decide)
      hsegment (by decide) .italic).1 rfl
    exact ⟨f, hf, items, b, hgroup, hfirst⟩
  · obtain ⟨f, hf, hfound⟩ := List.any_eq_true.1 hflag
    simp only [Bool.and_eq_true, beq_iff_eq] at hfound
    obtain ⟨⟨henclosing, hname⟩, hassigned⟩ := hfound
    obtain ⟨b, hb⟩ := Option.isSome_iff_exists.1 hassigned
    have hitem : f.item = .assignment b := Item.assignment?_eq_some_iff.1 hb
    refine ⟨f, hf, b, hitem, ?_, ["a"], by decide, henclosing⟩
    rw [hitem] at hname
    exact hname

end Analysis

end ColorTheme

import ColorTheme.Proofs.Walk.Order

/-!
# What a reference resolves to

A rule that speaks of the source alone says which attributes a reference sees: those of blocks
whose rule comes earlier in the table, and, where a block may refer to itself, those of its own
block that start before it.

* `Tour.color_valueFrom_iff` : a path into a tree stands for the color of an attribute that it
  names.
* `Analysis.get?_visible`, `Analysis.precedes_iff` : the trees that an item sees are those of the
  attributes that precede it.
* `Analysis.resolvesTo_iff_of_proper` : a reference resolves to the colors of the attributes that
  it names and that precede it, for every table whose blocks leave the name `color` to colors.
* `Analysis.resolvesTo_iff` : so it does for every source under the standard table.
-/

set_option autoImplicit false

namespace ColorTheme

/-- The visit is to an attribute that stands for a color: its name is allowed and is no style
flag, and it is no second definition of its path. -/
structure Visit.Occurs (v : Visit) (a : Attribute) : Prop where
  item : v.item = .assignment a
  allowed : v.rule.allows a.name.name = true
  noFlag : v.rule.flag? v.enclosing a.name.name = none
  first : v.verdict ≠ .rejected none ⟨.duplicateDefinition v.path, a.name.span⟩

/-- The attribute of a visit, if it stands for a color. -/
def Visit.occurrence? (v : Visit) : Option Attribute :=
  match v.item with
  | .assignment a =>
    if v.rule.allows a.name.name = true ∧ v.rule.flag? v.enclosing a.name.name = none ∧
        v.verdict ≠ .rejected none ⟨.duplicateDefinition v.path, a.name.span⟩ then some a
    else none
  | .block _ _ _ => none

theorem Visit.occurrence?_eq_some {v : Visit} {a : Attribute} :
    v.occurrence? = some a ↔ v.Occurs a := by
  unfold Visit.occurrence?
  constructor
  · intro h
    split at h
    · rename_i b hitem
      split at h
      · rename_i hcond
        cases h
        exact ⟨hitem, hcond.1, hcond.2.1, hcond.2.2⟩
      · cases h
    · cases h
  · intro h
    rw [h.item]
    exact if_pos ⟨h.allowed, h.noFlag, h.first⟩

/-- The path leads to the node that the item stands for, perhaps with one `color` behind it. -/
def Visit.NamedBy (d : Visit) (p : Path) : Prop := p = d.nodePath ∨ p = d.nodePath ++ [colorKey]

/-- The item of `d` stands in a block that comes earlier in the table than that of `v`, or in the
same block, if it may refer to itself, and starts before the item of `v`. -/
def Visit.Precedes (table : BlockTable) (d v : Visit) : Prop :=
  table.Before d.rule v.rule ∨
    v.rule.selfReferencing = true ∧ d.rule = v.rule ∧ d.item.span.start < v.item.span.start

/-- A table whose blocks are told apart by their names, and in which no attribute can make a node
called `color`. -/
structure BlockTable.Proper (table : BlockTable) : Prop where
  names : (table.map BlockRule.name).Nodup
  reserves : ∀ rule ∈ table, rule.ReservesColor

theorem BlockTable.Proper.nodup {table : BlockTable} (h : table.Proper) : table.Nodup :=
  h.names.of_map

theorem BlockTable.proper_standard : BlockTable.standard.Proper where
  names := by decide
  reserves := by
    unfold BlockRule.ReservesColor
    decide

/-! ## Along a tour -/

namespace Tour

variable {frame : Frame} {start : Progress} {items : List Item}
  {visits before behind : List Visit} {v d : Visit} {a : Attribute} {c : Color}

theorem occurs_of_resolvesTo (h : Tour frame start items visits) (hv : v ∈ visits)
    (hc : v.ResolvesTo a c) : v.Occurs a := by
  obtain ⟨p, hp⟩ := h.exists_judged hv
  rw [hc.2] at hp
  obtain ⟨b, hitem, -, -, -, hallows, hflag, -⟩ := hp.of_colored
  obtain rfl : a = b := Item.assignment.inj (hc.1.symm.trans hitem)
  rw [← h.rule v hv] at hallows hflag
  refine ⟨hc.1, hallows, hflag, ?_⟩
  rw [hc.2]
  intro hne
  cases hne

/-- An attribute that stands for a color resolves to what its value resolves to in the trees that
it sees. -/
theorem resolvesTo_iff_resolve (h : Tour frame start items (before ++ v :: behind)) (ha : v.Occurs a) :
    v.ResolvesTo a c ↔
      (frame.visible (start.after frame.rule before).tree).resolve a.value = .ok c := by
  have hrule := h.rule v (by simp)
  have hj := h.judged
  obtain ⟨rule, enclosing, item, verdict⟩ := v
  obtain ⟨hitem, hallowed, hflag, hfirst⟩ := ha
  dsimp only at hrule hitem hallowed hflag hfirst hj
  subst hrule hitem
  unfold Visit.ResolvesTo
  cases hj with
  | nameNotAllowed hname => rw [hname] at hallowed; cases hallowed
  | duplicate hname htaken => exact absurd rfl hfirst
  | flagged _ _ hisFlag _ | notTruth _ _ hisFlag _ | failedFlag _ _ hisFlag _ =>
    rw [hisFlag] at hflag
    cases hflag
  | colored hname hfree hnoFlag hresolved =>
    rw [hresolved]
    simp [Visit.path, Item.name]
  | failed hname hfree hnoFlag hfailed =>
    rw [hfailed]
    simp

/-- **A path into the tree of a tour stands for the color of a visited attribute** that it
names. -/
theorem color_valueFrom_iff (h : Tour frame start items visits) (hblank : start.tree = .blank)
    (hrule : frame.rule.ReservesColor) (walked rest : List String) (root : String) :
    frame.rule.name = root ∧
        ((start.after frame.rule visits).tree.valueFrom walked rest).bind Value.color = .ok c ↔
      ∃ d ∈ visits, (∃ b, d.ResolvesTo b c) ∧ d.NamedBy (root :: rest) := by
  rw [(h.reservesColor hblank hrule).color_valueFrom]
  simp only [h.colorAt_iff hblank]
  constructor
  · rintro ⟨rfl, ⟨d, hd, hc, hpath⟩ | ⟨q, rfl, d, hd, hc, hpath⟩⟩
    · exact ⟨d, hd, hc, .inl hpath.symm⟩
    · exact ⟨d, hd, hc, .inr (by rw [hpath]; rfl)⟩
  · rintro ⟨d, hd, hc, hpath⟩
    have hnode := h.nodePath_eq hd
    unfold Visit.NamedBy at hpath
    rw [hnode] at hpath
    rcases hpath with hpath | hpath
    · obtain ⟨hroot, hrest⟩ := List.cons.inj hpath
      exact ⟨hroot.symm, .inl ⟨d, hd, hc, by rw [hnode, hrest]⟩⟩
    · obtain ⟨hroot, hrest⟩ := List.cons.inj hpath
      exact ⟨hroot.symm, .inr ⟨d.nodePath.tail, hrest, d, hd, hc, hnode⟩⟩

end Tour

/-! ## Across chapters -/

namespace Analysis

variable {table : BlockTable} {body : Body} {source : String} {before behind : List Chapter}
  {chapter : Chapter} {v d : Visit} {a : Attribute} {c : Color}

/-- An item sees the finished trees of the chapters before its own, and in a block that may refer
to itself the tree so far. -/
theorem get?_visible (hnames : (table.map BlockRule.name).Nodup)
    (h : chapters table body = before ++ chapter :: behind) (sofar : Node) (name : String)
    (tree : Node) :
    (chapter.frame.visible sofar).get? name = some tree ↔
      (∃ e ∈ before, e.rule.name = name ∧ e.tree = tree) ∨
        chapter.rule.selfReferencing = true ∧ name = chapter.rule.name ∧ sofar = tree := by
  have hsub := nodup_chapterNames hnames body
  rw [h, List.map_append, List.map_cons, List.nodup_append] at hsub
  have hfresh : ∀ e ∈ before, e.rule.name ≠ chapter.rule.name := fun e he =>
    hsub.2.2 _ (List.mem_map_of_mem he) _ List.mem_cons_self
  have hearlier : Entries.get? name chapter.stage.scopes = some tree ↔
      ∃ e ∈ before, e.rule.name = name ∧ e.tree = tree := by
    have hkeys : ((before.map Chapter.scope).map Prod.fst).Nodup := by
      rw [List.map_map]
      exact hsub.1
    rw [scopes_of_chapters h, Entries.get?_putAll_nil_iff hkeys]
    simp [Chapter.scope]
  have hframe : chapter.frame.visible sofar =
      if chapter.rule.selfReferencing = true then
        chapter.stage.scopes.put chapter.rule.name sofar
      else chapter.stage.scopes := rfl
  rw [hframe]
  by_cases hself : chapter.rule.selfReferencing = true
  · rw [if_pos hself]
    by_cases hname : name = chapter.rule.name
    · subst hname
      have hnone : ¬ ∃ e ∈ before, e.rule.name = chapter.rule.name ∧ e.tree = tree := by
        rintro ⟨e, he, heq, -⟩
        exact hfresh e he heq
      simp [Entries.put, hself, hnone]
    · rw [Entries.put, Entries.get?_alter_of_ne hname, hearlier]
      simp [hname]
  · rw [if_neg hself, hearlier]
    simp [hself]

/-- A visit precedes another if it is in a chapter before that of the other, or in a block that
may refer to itself, and before the other. -/
theorem precedes_iff {earlier later : List Visit} {b : Attribute} (hnodup : table.Nodup)
    (hchapters : chapters table (Body.read source).items = before ++ chapter :: behind)
    (hvisits : chapter.visits = earlier ++ v :: later)
    (hd : d ∈ visits table (Body.read source).items) (ha : v.item = .assignment a)
    (hb : d.item = .assignment b) :
    d.Precedes table v ↔
      (∃ e ∈ before, d ∈ e.visits) ∨ chapter.rule.selfReferencing = true ∧ d ∈ earlier := by
  have hchapter : chapter ∈ chapters table (Body.read source).items := by rw [hchapters]; simp
  have hv : v ∈ chapter.visits := by rw [hvisits]; simp
  obtain ⟨e, he, hde⟩ := mem_visits.1 hd
  have hrules : ∀ e' ∈ chapters table (Body.read source).items, d ∈ e'.visits →
      e'.rule = d.rule := fun e' _ hde' => (e'.tour.rule d hde').symm
  have hstart : d.item.span.start < v.item.span.start ↔
      d.item.name.span.start < v.item.name.span.start := by
    rw [← start_of_visited he hde hb, ← start_of_visited hchapter hv ha, ha, hb]
    rfl
  have hvrule : v.rule = chapter.rule := chapter.tour.rule v hv
  unfold Visit.Precedes
  rw [hstart, hvrule]
  refine or_congr ?_ (and_congr_right fun hself => ?_)
  · rw [← hrules e he hde, ← mem_chapters_before_iff hnodup hchapters he]
    constructor
    · exact fun hbefore => ⟨e, hbefore, hde⟩
    · rintro ⟨e', hbefore, hde'⟩
      have he' : e' ∈ chapters table (Body.read source).items := by
        rw [hchapters]
        exact List.mem_append_left _ hbefore
      obtain rfl := eq_of_rule_eq hnodup he he' ((hrules e' he' hde').trans (hrules e he hde).symm)
      exact hbefore
  · constructor
    · rintro ⟨hrule, hlt⟩
      obtain rfl := eq_of_rule_eq hnodup hchapter he ((hrules e he hde).trans hrule)
      exact (mem_visits_before_iff hchapter hvisits hde).2 hlt
    · intro hdearlier
      have hdchapter : d ∈ chapter.visits := by
        rw [hvisits]
        exact List.mem_append_left _ hdearlier
      exact ⟨(hrules chapter hchapter hdchapter).symm,
        (mem_visits_before_iff hchapter hvisits hdchapter).1 hdearlier⟩

/-- What a reference stands for, by where the attribute is that it names: in a chapter before, or
in its own. -/
theorem resolve_path_iff (hproper : table.Proper)
    (hchapters : chapters table body = before ++ chapter :: behind) {earlier later : List Visit}
    (hvisits : chapter.visits = earlier ++ later) (root : Ident) (rest : List Ident)
    (span : Span) (c : Color) :
    (chapter.frame.visible (chapter.start.after chapter.rule earlier).tree).resolve
        (.path root rest span) = .ok c ↔
      (∃ e ∈ before, ∃ d ∈ e.visits, (∃ b, d.ResolvesTo b c) ∧
        d.NamedBy ((root :: rest).map Ident.name)) ∨
      chapter.rule.selfReferencing = true ∧ ∃ d ∈ earlier, (∃ b, d.ResolvesTo b c) ∧
        d.NamedBy ((root :: rest).map Ident.name) := by
  have htour := chapter.tour
  rw [hvisits] at htour
  have hreserves : ∀ e ∈ chapters table body, e.rule.ReservesColor := fun e he =>
    hproper.reserves _ (rule_mem_of_mem_chapters he)
  have hsofar := fun walked => htour.beginning.color_valueFrom_iff (c := c) rfl
    (hreserves chapter (by rw [hchapters]; simp)) walked (rest.map Ident.name) root.name
  have hearlier := fun walked (e : Chapter) (he : e ∈ before) =>
    e.tour.color_valueFrom_iff (c := c) rfl
      (hreserves e (by rw [hchapters]; simp [he])) walked (rest.map Ident.name) root.name
  rw [Scopes.resolve_path_iff, List.map_cons]
  constructor
  · rintro ⟨tree, htree, hcolor⟩
    rcases (get?_visible hproper.names hchapters _ _ _).1 htree with
      ⟨e, he, hroot, rfl⟩ | ⟨hself, hroot, rfl⟩
    · exact .inl ⟨e, he, (hearlier _ e he).1 ⟨hroot, hcolor⟩⟩
    · exact .inr ⟨hself, (hsofar _).1 ⟨hroot.symm, hcolor⟩⟩
  · rintro (⟨e, he, hd⟩ | ⟨hself, hd⟩)
    · obtain ⟨hroot, hcolor⟩ := (hearlier [root.name] e he).2 hd
      exact ⟨_, (get?_visible hproper.names hchapters _ _ _).2 (.inl ⟨e, he, hroot, rfl⟩), hcolor⟩
    · obtain ⟨hroot, hcolor⟩ := (hsofar [root.name]).2 hd
      exact ⟨_, (get?_visible hproper.names hchapters _ _ _).2 (.inr ⟨hself, hroot.symm, rfl⟩),
        hcolor⟩

/-- **A reference resolves to the colors of the attributes that it names and that precede it.** -/
theorem resolvesTo_iff_of_proper (hproper : table.Proper)
    (hv : v ∈ visits table (Body.read source).items) (ha : v.Occurs a) {p : Path}
    (hp : a.value.path? = some p) (c : Color) :
    v.ResolvesTo a c ↔
      ∃ d ∈ visits table (Body.read source).items, ∃ b, d.Occurs b ∧ d.ResolvesTo b c ∧
        d.NamedBy p ∧ d.Precedes table v := by
  obtain ⟨chapter, hchapter, hvisit⟩ := mem_visits.1 hv
  obtain ⟨before, behind, hchapters⟩ := List.append_of_mem hchapter
  obtain ⟨earlier, later, hvisits⟩ := List.append_of_mem hvisit
  have htour := chapter.tour
  rw [hvisits] at htour
  obtain ⟨root, rest, span, hvalue, rfl⟩ : ∃ root rest span, a.value = .path root rest span ∧
      (root :: rest).map Ident.name = p := by
    cases hvalue : a.value <;> simp only [hvalue, Expr.path?] at hp <;> cases hp
    exact ⟨_, _, _, rfl, rfl⟩
  rw [htour.resolvesTo_iff_resolve ha, hvalue]
  refine (resolve_path_iff hproper hchapters hvisits root rest span c).trans ?_
  constructor
  · rintro (⟨e, he, d, hd, ⟨b, hb⟩, hnamed⟩ | ⟨hself, d, hd, ⟨b, hb⟩, hnamed⟩)
    · have hmem : e ∈ chapters table (Body.read source).items := by rw [hchapters]; simp [he]
      have hdvisits := mem_visits.2 ⟨e, hmem, hd⟩
      exact ⟨d, hdvisits, b, e.tour.occurs_of_resolvesTo hd hb, hb, hnamed,
        (precedes_iff hproper.nodup hchapters hvisits hdvisits ha.item hb.1).2 (.inl ⟨e, he, hd⟩)⟩
    · have hdchapter : d ∈ chapter.visits := by rw [hvisits]; simp [hd]
      have hdvisits := mem_visits.2 ⟨chapter, hchapter, hdchapter⟩
      exact ⟨d, hdvisits, b, chapter.tour.occurs_of_resolvesTo hdchapter hb, hb, hnamed,
        (precedes_iff hproper.nodup hchapters hvisits hdvisits ha.item hb.1).2 (.inr ⟨hself, hd⟩)⟩
  · rintro ⟨d, hd, b, -, hb, hnamed, hprecedes⟩
    rcases (precedes_iff hproper.nodup hchapters hvisits hd ha.item hb.1).1 hprecedes with
      ⟨e, he, hde⟩ | ⟨hself, hdearlier⟩
    · exact .inl ⟨e, he, d, hde, ⟨b, hb⟩, hnamed⟩
    · exact .inr ⟨hself, d, hdearlier, ⟨b, hb⟩, hnamed⟩

/-- **References resolve exactly.**  In every source, and under the standard table, a reference
resolves to a color if and only if an attribute of that color precedes it which the reference
names. -/
theorem resolvesTo_iff (source : String)
    (hv : v ∈ visits .standard (Body.read source).items) (ha : v.Occurs a) {p : Path}
    (hp : a.value.path? = some p) (c : Color) :
    v.ResolvesTo a c ↔
      ∃ d ∈ visits .standard (Body.read source).items, ∃ b, d.Occurs b ∧ d.ResolvesTo b c ∧
        (p = d.nodePath ∨ p = d.nodePath ++ [colorKey]) ∧ d.Precedes .standard v :=
  resolvesTo_iff_of_proper BlockTable.proper_standard hv ha hp c

/-- A group with a color of its own, and in a later block a reference to that color. -/
def ownColorSource : String :=
  "palette \x7b\n x \x7b\n color = #010203\n \x7d\n \x7d\n theme \x7b\n y = palette.x.color\n \x7d"

theorem resolvesTo_iff_ownColorSource :
    ∃ v ∈ visits .standard (Body.read ownColorSource).items, ∃ a, v.Occurs a ∧
      a.value.path? = some ["palette", "x", "color"] ∧
      ∀ c, v.ResolvesTo a c ↔
        ∃ d ∈ visits .standard (Body.read ownColorSource).items, ∃ b, d.Occurs b ∧
          d.ResolvesTo b c ∧ (["palette", "x", "color"] = d.nodePath ∨
            ["palette", "x", "color"] = d.nodePath ++ [colorKey]) ∧ d.Precedes .standard v := by
  have hfound : ∃ v ∈ visits .standard (Body.read ownColorSource).items,
      v.occurrence?.bind (·.value.path?) = some ["palette", "x", "color"] := by
    decide +kernel
  obtain ⟨v, hv, hpath⟩ := hfound
  obtain ⟨a, ha, hp⟩ := Option.bind_eq_some_iff.1 hpath
  have ha := Visit.occurrence?_eq_some.1 ha
  exact ⟨v, hv, a, ha, hp, fun c => resolvesTo_iff ownColorSource hv ha hp c⟩

end Analysis

end ColorTheme

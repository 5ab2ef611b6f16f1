import ColorTheme.Proofs.Account.Finding

/-!
# The first item of each name

* `Chapter.exists_inside` : behind the visit that opens a block are the visits to its items, from
  the first to the last.
* `Chapter.exists_opensAt` : around what is visited, all blocks are opened.
* `Analysis.accepted_block_iff` : these are the blocks that are accepted.
* `Analysis.exists_free_visit` : the first item of its name in a block that is opened finds its path
  free.
* `Analysis.first_of_taken` : so an item that takes its path is the first of its name.
-/

set_option autoImplicit false

namespace ColorTheme

variable {frame : Frame} {enclosing : Path} {p : Progress} {item : Item} {v : Visit}

/-! ## The visits inside of a block -/

theorem visitsOfItems_append (frame : Frame) (enclosing : Path) (p : Progress)
    (front behind : List Item) :
    visitsOfItems frame enclosing p (front ++ behind) = visitsOfItems frame enclosing p front ++
      visitsOfItems frame enclosing (walkItems frame enclosing p front) behind := by
  induction front generalizing p with
  | nil => rfl
  | cons item front ih =>
    rw [List.cons_append, visitsOfItems, visitsOfItems, walkItems, ih, List.append_assoc]

/-- The first visit of the walk through an item is to the item itself. -/
theorem exists_visitsOfItem_eq (frame : Frame) (enclosing : Path) (p : Progress) (item : Item) :
    ∃ inside, visitsOfItem frame enclosing p item =
      ⟨frame.rule, enclosing, item, frame.verdict p enclosing item⟩ :: inside := by
  cases item with
  | assignment a => exact ⟨[], rfl⟩
  | block kind body span =>
    rw [visitsOfItem]
    exact ⟨_, rfl⟩

/-- The visit opens a block with the given items, at the path. -/
structure Visit.OpensAt (v : Visit) (path : Path) (items : List Item) : Prop where
  item : ∃ kind span, v.item = .block kind items span
  verdict : ∃ name, v.verdict = .opened path name

theorem Visit.OpensAt.taken? {path : Path} {items : List Item} (h : v.OpensAt path items) :
    v.verdict.taken? = some path := by
  obtain ⟨name, hname⟩ := h.verdict
  rw [hname]
  rfl

mutual

theorem exists_inside_of_visitsOfItem (frame : Frame) : ∀ (enclosing : Path) (p : Progress)
    (item : Item) {v : Visit} {path : Path} {items : List Item},
    v ∈ visitsOfItem frame enclosing p item → v.OpensAt path items →
    ∃ outer start behind, visitsOfItem frame enclosing p item =
      outer ++ v :: (visitsOfItems frame path start items ++ behind)
  | enclosing, p, .assignment a, v, path, items, hv, hopens => by
    obtain ⟨kind, span, hitem⟩ := hopens.item
    rw [List.mem_singleton.1 hv] at hitem
    cases hitem
  | enclosing, p, .block kind body span, v, path, items, hv, hopens => by
    rw [visitsOfItem] at hv ⊢
    rcases List.mem_cons.1 hv with rfl | hv
    · obtain ⟨_, _, hitem⟩ := hopens.item
      obtain ⟨name, hname⟩ := hopens.verdict
      cases hitem
      dsimp only at hname
      rw [hname]
      exact ⟨[], _, [], by rw [List.append_nil]; rfl⟩
    · cases h : groupVerdict frame.rule p.log enclosing kind with
      | opened inside name =>
        rw [h] at hv
        obtain ⟨outer, start, behind, heq⟩ := exists_inside_of_visitsOfItems frame inside
          (p.record frame.rule (.opened inside name)) body hv hopens
        dsimp only
        rw [heq]
        exact ⟨_ :: outer, start, behind, rfl⟩
      | colored _ _ _ | flagged _ _ _ _ | noted _ _ _ | rejected _ _ | incomplete _ =>
        rw [h] at hv
        cases hv

/-- Behind the visit that opens a block are the visits to its items. -/
theorem exists_inside_of_visitsOfItems (frame : Frame) : ∀ (enclosing : Path) (p : Progress)
    (all : List Item) {v : Visit} {path : Path} {items : List Item},
    v ∈ visitsOfItems frame enclosing p all → v.OpensAt path items →
    ∃ outer start behind, visitsOfItems frame enclosing p all =
      outer ++ v :: (visitsOfItems frame path start items ++ behind)
  | _, _, [], _, _, _, hv, _ => by cases hv
  | enclosing, p, item :: others, v, path, items, hv, hopens => by
    rw [visitsOfItems] at hv ⊢
    rcases List.mem_append.1 hv with hv | hv
    · obtain ⟨outer, start, behind, heq⟩ :=
        exists_inside_of_visitsOfItem frame enclosing p item hv hopens
      rw [heq]
      exact ⟨outer, start, _, by simp only [List.append_assoc, List.cons_append]; rfl⟩
    · obtain ⟨outer, start, behind, heq⟩ := exists_inside_of_visitsOfItems frame enclosing
        (walkItem frame enclosing p item) others hv hopens
      rw [heq]
      exact ⟨_ ++ outer, start, behind, by rw [List.append_assoc]⟩

end

/-- An item whose name is allowed and whose path is free takes the path, whatever its value. -/
theorem Judged.taken_of_free {verdict : Verdict} (h : Judged frame p enclosing item verdict)
    (hfree : p.log.takes (enclosing ++ [item.name.name]) = false)
    (hallows : frame.rule.allows item.name.name = true) (hnesting : frame.rule.nesting = true)
    (hname : item.name.name ≠ colorKey) :
    verdict.taken? = some (enclosing ++ [item.name.name]) := by
  cases h with
  | nameNotAllowed hnot => exact absurd (hallows.symm.trans hnot) (by decide)
  | duplicate _ htaken | duplicateBlock _ _ htaken =>
    exact absurd (htaken.symm.trans hfree) (by decide)
  | blockInside hnot => exact absurd (hnesting.symm.trans hnot) (by decide)
  | reservedName _ hcolor => exact absurd hcolor hname
  | flagged | notTruth | failedFlag | colored | failed | opened => rfl

namespace Tour

variable {start : Progress} {items inner : List Item} {before behind : List Visit} {b u : Visit}
  {path : Path}

/-- No visit before or behind another takes the same path. -/
theorem taken?_ne (h : Tour frame start items (before ++ b :: behind))
    (htaken : b.verdict.taken? = some path) (hu : u ∈ before ++ behind) :
    u.verdict.taken? ≠ some path := by
  obtain ⟨-, hbehind, hbefore⟩ := List.pairwise_append.1 h.taken_pairwise
  intro hutaken
  rcases List.mem_append.1 hu with hu | hu
  · exact hbefore u hu b List.mem_cons_self path hutaken htaken
  · exact (List.pairwise_cons.1 hbehind).1 u hu path htaken hutaken

/-- Before a block is opened, nothing in it is visited. -/
theorem enclosing_ne_of_before (h : Tour frame start items (before ++ b :: behind))
    (hopens : b.OpensAt path inner) (hroot : path ≠ [frame.rule.name]) (hu : u ∈ before) :
    u.enclosing ≠ path := by
  rintro rfl
  obtain ⟨others, rest, rfl⟩ := List.append_of_mem hu
  rcases h.nested others u (rest ++ b :: behind) (by simp) with ⟨heq, -⟩ | ⟨opener, hopener, hin⟩
  · exact hroot heq
  · obtain ⟨_, _, _, name, -, -, hopened⟩ := hin
    refine h.taken?_ne hopens.taken? (u := opener) (by simp [hopener]) ?_
    rw [hopened]
    rfl

/-- Behind it, only its items are visited there. -/
theorem item_mem_of_behind {p : Progress} {front : List Item}
    (h : Tour frame start items (before ++ b :: visitsOfItems frame path p front))
    (hopens : b.OpensAt path inner) (hu : u ∈ visitsOfItems frame path p front)
    (henclosing : u.enclosing = path) : u.item ∈ front := by
  obtain ⟨others, rest, hsplit⟩ := List.append_of_mem hu
  rcases nested_visitsOfItems frame path p front others u rest hsplit with
    ⟨-, hitem⟩ | ⟨opener, hopener, hin⟩
  · exact hitem
  · obtain ⟨_, _, _, name, -, -, hopened⟩ := hin
    rw [henclosing] at hopened
    refine absurd ?_ (h.taken?_ne hopens.taken? (u := opener) (by simp [hsplit, hopener]))
    rw [hopened]
    rfl

end Tour

namespace Chapter

variable {c : Chapter} {b v : Visit} {path : Path} {items : List Item}

theorem exists_inside (hb : b ∈ c.visits) (hopens : b.OpensAt path items) :
    ∃ outer start behind, c.visits =
      outer ++ b :: (visitsOfItems c.frame path start items ++ behind) :=
  exists_inside_of_visitsOfItems c.frame [c.rule.name] c.start c.block.body hb hopens

/-- The visit to an item of a block that is opened: between them are the visits to the items in
front. -/
theorem exists_split {item : Item} {front behind : List Item} (hb : b ∈ c.visits)
    (hopens : b.OpensAt path (front ++ item :: behind)) : ∃ outer start others, c.visits =
      (outer ++ b :: visitsOfItems c.frame path start front) ++
        ⟨c.frame.rule, path, item,
          c.frame.verdict (walkItems c.frame path start front) path item⟩ :: others := by
  obtain ⟨outer, start, rest, hvisits⟩ := exists_inside hb hopens
  obtain ⟨inside, hinside⟩ := exists_visitsOfItem_eq c.frame path
    (walkItems c.frame path start front) item
  rw [visitsOfItems_append, visitsOfItems, hinside] at hvisits
  exact ⟨outer, start, _, hvisits.trans (by simp only [List.append_assoc, List.cons_append]; rfl)⟩

/-- A block inside of a block has a path of two names or more. -/
theorem length_of_opensAt (hb : b ∈ c.visits) (hopens : b.OpensAt path items) :
    1 < path.length := by
  obtain rfl := c.tour.path_of_taken hb hopens.taken?
  obtain ⟨names, henclosing, -⟩ := c.tour.enclosing_eq hb
  rw [Visit.path, henclosing]
  simp

/-- A visit inside of a block is to an item of a block that is opened. -/
theorem exists_opener (hv : v ∈ c.visits) (hlength : 1 < v.enclosing.length) :
    ∃ b ∈ c.visits, ∃ items, b.OpensAt v.enclosing items ∧ v.item ∈ items := by
  obtain ⟨before, behind, hvisits⟩ := List.append_of_mem hv
  rcases c.tour.nested before v behind hvisits with ⟨hroot, -⟩ | ⟨b, hb, hopens⟩
  · rw [hroot] at hlength
    exact absurd hlength (Nat.lt_irrefl 1)
  · obtain ⟨kind, body, span, name, hitem, hmem, hopened⟩ := hopens
    refine ⟨b, ?_, body, ⟨⟨kind, span, hitem⟩, name, hopened⟩, hmem⟩
    rw [hvisits]
    exact List.mem_append_left _ hb

/-- All blocks around what is visited are opened. -/
theorem exists_opensAt {path : Path} {v : Visit} (hv : v ∈ c.visits)
    (habove : path <+: v.enclosing) (hlength : 1 < path.length) :
    ∃ b ∈ c.visits, ∃ items, b.OpensAt path items := by
  obtain ⟨b, hb, items, hopens, -⟩ :=
    exists_opener hv (Nat.lt_of_lt_of_le hlength habove.length_le)
  by_cases hinner : path = v.enclosing
  · exact ⟨b, hb, items, hinner ▸ hopens⟩
  · have hpath : v.enclosing = b.enclosing ++ [b.item.name.name] :=
      c.tour.path_of_taken hb hopens.taken?
    rw [hpath] at habove hinner
    have houter : path <+: b.enclosing := (List.prefix_concat_iff.1 habove).resolve_left hinner
    exact exists_opensAt hb houter hlength
termination_by v.enclosing.length
decreasing_by
  rw [hpath, List.length_append]
  exact Nat.lt_succ_self _

/-- Where a block is opened, no attribute takes the path. -/
theorem taken?_eq_none_of_opensAt {a : Attribute} {v : Visit} (hv : v ∈ c.visits)
    (hitem : v.item = .assignment a) (hb : b ∈ c.visits) (hopens : b.OpensAt v.path items) :
    v.verdict.taken? = none := by
  by_contra htaken
  obtain ⟨taken, htaken⟩ := Option.ne_none_iff_exists'.1 htaken
  obtain rfl := c.tour.path_of_taken hv htaken
  obtain rfl := c.tour.eq_of_taken hb hv hopens.taken? htaken
  obtain ⟨kind, span, hblock⟩ := hopens.item
  exact absurd (hblock.symm.trans hitem) nofun

/-- A path is opened with one list of items. -/
theorem items_eq_of_opensAt {b' : Visit} {items' : List Item} (hb : b ∈ c.visits)
    (hb' : b' ∈ c.visits) (hopens : b.OpensAt path items) (hopens' : b'.OpensAt path items') :
    items = items' := by
  obtain rfl := c.tour.eq_of_taken hb hb' hopens.taken? hopens'.taken?
  obtain ⟨kind, span, hitem⟩ := hopens.item
  obtain ⟨kind', span', hitem'⟩ := hopens'.item
  rw [hitem] at hitem'
  exact (Item.block.inj hitem').2.1

/-- What is visited in a block is one of its items. -/
theorem item_mem_of_opensAt (hv : v ∈ c.visits) (hb : b ∈ c.visits)
    (hopens : b.OpensAt v.enclosing items) : v.item ∈ items := by
  obtain ⟨b', hb', items', hopens', hmem⟩ := exists_opener hv (length_of_opensAt hb hopens)
  rwa [items_eq_of_opensAt hb hb' hopens hopens']

end Chapter

namespace Analysis

variable {table : BlockTable} {body : Body} {c : Chapter} {b v : Visit} {path : Path}
  {items front behind : List Item}

/-! ## Paths that are free when a chapter begins -/

theorem head?_of_taken_opening {w : Verdict} (h : w ∈ openingLog table body)
    (htaken : w.taken? = some path) : path.head? = some metaName := by
  rw [← map_verdict_openingFindings] at h
  obtain ⟨f, hf, rfl⟩ := List.mem_map.1 h
  rcases mem_openingFindings.1 hf with hf | ⟨block, -, hf⟩
  · rcases mem_outerFindings.1 hf with ⟨a, -, rfl⟩ | ⟨barred, -, rfl⟩ <;> cases htaken
  · rcases mem_metaFindings.1 hf with ⟨inner, -, rfl⟩ | hf
    · cases htaken
    · obtain ⟨a, -, log, rfl⟩ := mem_noteFindings hf
      dsimp only at htaken
      unfold metaVerdict at htaken
      dsimp only at htaken
      split at htaken
      · cases htaken
      · split at htaken <;> cases htaken <;> rfl

theorem head?_of_taken_chapter {e : Chapter} {w : Verdict} (h : w ∈ e.verdicts)
    (htaken : w.taken? = some path) : path.head? = some e.rule.name := by
  rw [Chapter.verdicts] at h
  rcases List.mem_append.1 h with h | h
  · rcases List.mem_cons.1 h with rfl | h
    · cases htaken
      rfl
    · obtain ⟨v, hv, rfl⟩ := List.mem_map.1 h
      obtain rfl := e.tour.path_of_taken hv htaken
      obtain ⟨names, henclosing, -⟩ := e.tour.enclosing_eq hv
      rw [Visit.path, henclosing]
      rfl
  · obtain ⟨d, rfl, -⟩ := warning_of_mem_completenessVerdicts h
    cases htaken

/-- **When a chapter begins, all paths inside of its block are free.** -/
theorem free_at_start (h : Regular table body) (hc : c ∈ chapters table body)
    (hhead : path.head? = some c.rule.name) (hlength : 1 < path.length) :
    c.start.log.takes path = false := by
  obtain ⟨before, after, hchapters⟩ := List.append_of_mem hc
  have hnames := nodup_chapterNames h.names body
  rw [hchapters, List.map_append, List.map_cons, List.nodup_append] at hnames
  rw [chapters, if_pos h.palette] at hchapters
  rw [Chapter.start, log_of_chaptersFrom hchapters]
  refine List.any_eq_false.2 fun w hw htaken => ?_
  have htaken : w.taken? = some path := by simpa using htaken
  rcases List.mem_append.1 hw with hw | hw
  · rcases List.mem_append.1 hw with hw | hw
    · have hopening := head?_of_taken_opening hw htaken
      rw [hhead] at hopening
      refine h.noMeta (List.mem_map.2 ⟨c.rule, rule_mem_of_mem_chapters hc, ?_⟩)
      exact Option.some.inj hopening
    · obtain ⟨e, he, hw⟩ := List.mem_flatMap.1 hw
      have hother := head?_of_taken_chapter hw htaken
      rw [hhead] at hother
      exact hnames.2.2 e.rule.name (List.mem_map_of_mem he) c.rule.name List.mem_cons_self
        (Option.some.inj hother).symm
  · rw [List.mem_singleton.1 hw] at htaken
    cases htaken
    exact absurd hlength (Nat.lt_irrefl 1)

/-- What is found in a block with colors, or in a block inside of it, is visited there. -/
theorem exists_chapter_of_head {f : Finding} {name : String} (hf : f ∈ findings table body)
    (hhead : f.enclosing.head? = some name) (hname : name ≠ metaName) :
    ∃ c ∈ chapters table body, c.rule.name = name ∧ ∃ v ∈ c.visits, v.finding = f := by
  rcases List.mem_append.1 hf with hf | hf
  · rcases mem_openingFindings.1 hf with hf | ⟨block, -, hf⟩
    · rcases mem_outerFindings.1 hf with ⟨a, -, rfl⟩ | ⟨barred, -, rfl⟩ <;> cases hhead
    · have hmeta : f.enclosing = [metaName] := by
        rcases mem_metaFindings.1 hf with ⟨inner, -, rfl⟩ | hf
        · rfl
        · obtain ⟨a, -, log, rfl⟩ := mem_noteFindings hf
          rfl
      rw [hmeta] at hhead
      exact absurd (Option.some.inj hhead).symm hname
  · obtain ⟨c, hc, hf⟩ := List.mem_flatMap.1 hf
    rcases List.mem_cons.1 hf with rfl | hf
    · cases hhead
    · obtain ⟨v, hv, rfl⟩ := List.mem_map.1 hf
      obtain ⟨names, henclosing, -⟩ := c.tour.enclosing_eq hv
      rw [Visit.finding, henclosing] at hhead
      exact ⟨c, hc, Option.some.inj hhead, v, hv, rfl⟩

theorem exists_visit_of_head (h : Regular table body) (hc : c ∈ chapters table body)
    {f : Finding} (hf : f ∈ findings table body)
    (hhead : f.enclosing.head? = some c.rule.name) : ∃ v ∈ c.visits, v.finding = f := by
  have hname : c.rule.name ≠ metaName := fun hmeta =>
    h.noMeta (List.mem_map.2 ⟨c.rule, rule_mem_of_mem_chapters hc, hmeta⟩)
  obtain ⟨d, hd, hrule, hvisit⟩ := exists_chapter_of_head hf hhead hname
  obtain rfl := eq_of_ruleName h.names hc hd hrule
  exact hvisit

/-- **The blocks that are accepted inside of the block of a chapter are those that visits open.** -/
theorem accepted_block_iff (h : Regular table body) (hc : c ∈ chapters table body)
    (hhead : path.head? = some c.rule.name) (hlength : 1 < path.length) :
    (∃ f ∈ findings table body, f.Accepted ∧ f.path = path ∧
      ∃ kind span, f.item = .block kind items span) ↔ ∃ b ∈ c.visits, b.OpensAt path items := by
  constructor
  · rintro ⟨f, hf, haccepted, rfl, kind, span, hitem⟩
    have hinside : f.enclosing.head? = some c.rule.name := by
      unfold Finding.path at hhead hlength
      cases henclosing : f.enclosing with
      | nil =>
        rw [henclosing] at hlength
        exact absurd hlength (Nat.lt_irrefl 1)
      | cons first rest =>
        rw [henclosing] at hhead
        exact hhead
    obtain ⟨b, hb, rfl⟩ := exists_visit_of_head h hc hf hinside
    obtain ⟨p, hp⟩ := c.tour.exists_judged hb
    rw [show b.item = _ from hitem] at hp
    exact ⟨b, hb, ⟨kind, span, hitem⟩, _, Judged.opened_of_symbol? hp haccepted⟩
  · rintro ⟨b, hb, hopens⟩
    obtain ⟨kind, span, hitem⟩ := hopens.item
    have hpath : path = b.path := c.tour.path_of_taken hb hopens.taken?
    have hf := finding_mem_of_visit hc hb
    rcases accepted_or_rejected hf with haccepted | ⟨taken, d, hrejected, -⟩
    · exact ⟨b.finding, hf, haccepted, hpath.symm, kind, span, hitem⟩
    · obtain ⟨name, hname⟩ := hopens.verdict
      rw [Visit.finding, hname] at hrejected
      cases hrejected

/-! ## First items -/

/-- **The first item of its name finds its path free**, in a block that is opened. -/
theorem exists_free_visit (h : Regular table body) (hc : c ∈ chapters table body)
    (hb : b ∈ c.visits) {item : Item} (hopens : b.OpensAt path (front ++ item :: behind))
    (hfirst : ∀ i ∈ front, i.name.name ≠ item.name.name) :
    ∃ v ∈ c.visits, v.enclosing = path ∧ v.item = item ∧ ∃ p,
      v.verdict = c.frame.verdict p path item ∧
        p.log.takes (path ++ [item.name.name]) = false := by
  obtain ⟨outer, start, others, hsplit⟩ := Chapter.exists_split hb hopens
  have htour := c.tour
  rw [hsplit] at htour
  have hw : _ ∈ c.visits := hsplit ▸ List.mem_append_right _ List.mem_cons_self
  have hlength := Chapter.length_of_opensAt hb hopens
  refine ⟨_, hw, rfl, rfl, _, htour.decided.verdict_eq, ?_⟩
  rw [Progress.log_after, Log.takes, List.any_append, Bool.or_eq_false_iff]
  constructor
  · refine free_at_start h hc ?_ ?_
    · obtain ⟨names, henclosing, -⟩ := c.tour.enclosing_eq hw
      rw [show path = _ from henclosing]
      rfl
    · rw [List.length_append]
      omega
  · refine List.any_eq_false.2 fun verdict hverdict hutaken => ?_
    obtain ⟨u, hu, rfl⟩ := List.mem_map.1 hverdict
    have hutaken : u.verdict.taken? = some (path ++ [item.name.name]) := by simpa using hutaken
    have hpath : path ++ [item.name.name] = u.path := htour.beginning.path_of_taken hu hutaken
    obtain ⟨henclosing, hname⟩ := List.append_inj' hpath rfl
    rcases List.mem_append.1 hu with hu | hu
    · refine htour.beginning.enclosing_ne_of_before hopens (fun hroot => ?_) hu henclosing.symm
      rw [hroot] at hlength
      exact absurd hlength (Nat.lt_irrefl 1)
    · rcases List.mem_cons.1 hu with rfl | hu
      · have hlong := Option.some.inj (hopens.taken?.symm.trans hutaken)
        simp at hlong
      · exact hfirst u.item (htour.beginning.item_mem_of_behind hopens hu henclosing.symm)
          (List.cons.inj hname).1.symm

/-- A name that is found in a list of items is that of a first item. -/
theorem exists_first {name : String} {item : Item} (hitem : item ∈ items)
    (hname : item.name.name = name) :
    ∃ front first behind, items = front ++ first :: behind ∧ first.name.name = name ∧
      ∀ i ∈ front, i.name.name ≠ name := by
  obtain ⟨first, hfirst⟩ := Option.isSome_iff_exists.1
    (List.find?_isSome (p := fun i : Item => i.name.name == name).2 ⟨item, hitem, by simp [hname]⟩)
  obtain ⟨hfound, front, behind, rfl, hfront⟩ := List.find?_eq_some_iff_append.1 hfirst
  exact ⟨front, first, behind, rfl, by simpa using hfound, by simpa using hfront⟩

/-- **The item that takes its path in a block is the first of its name there**, if items of this
name are allowed. -/
theorem first_of_taken (h : Regular table body) (hc : c ∈ chapters table body)
    (hb : b ∈ c.visits) (hv : v ∈ c.visits) (hopens : b.OpensAt v.enclosing items)
    (htaken : v.verdict.taken? = some v.path)
    (hallows : c.rule.allows v.item.name.name = true) (hnesting : c.rule.nesting = true)
    (hcolor : v.item.name.name ≠ colorKey) :
    ∃ front behind, items = front ++ v.item :: behind ∧
      ∀ i ∈ front, i.name.name ≠ v.item.name.name := by
  obtain ⟨front, first, behind, rfl, hname, hfront⟩ :=
    exists_first (Chapter.item_mem_of_opensAt hv hb hopens) rfl
  rw [← hname] at hfront hallows hcolor
  obtain ⟨w, hw, hwenclosing, hwitem, p, hverdict, hfree⟩ :=
    exists_free_visit h hc hb hopens hfront
  have hwtaken := (judged c.frame p v.enclosing first).taken_of_free hfree hallows hnesting hcolor
  rw [← hverdict] at hwtaken
  obtain rfl : v = w := by
    refine c.tour.eq_of_taken hv hw htaken ?_
    rw [hwtaken, hname]
    rfl
  exact ⟨front, behind, by rw [hwitem], hname ▸ hfront⟩

end Analysis

end ColorTheme

import ColorTheme.Proofs.Account.Spans
import ColorTheme.Proofs.Node.Shifted
import ColorTheme.Proofs.Walk.Fixpoint

/-!
# References that come too early

An attribute may fail only because of its place: in the finished trees its value would resolve.
Then it refers to something behind it, or to a block around it, and the error should say so.

* `Contained` : the visits to the items of a block stand together.
* `Analysis.upTo` : the finished trees of a block and of those before it in the table.
* `Analysis.reported_of_forward` : such an attribute is reported as a circle, except where it
  names the own color of a later attribute by a `color` that no item spells out.
* `Analysis.not_always_circular` : there it is reported as an unknown path.
-/

set_option autoImplicit false

namespace ColorTheme

/-! ## Blocks are visited as a whole -/

/-- Each visit inside of a block stands behind the one that opens the block, and between them
there are only visits inside of the block. -/
def Contained (enclosing : Path) (visits : List Visit) : Prop :=
  ∀ before d behind, visits = before ++ d :: behind → d.enclosing = enclosing ∨
    ∃ outer b inner name, before = outer ++ b :: inner ∧ b.verdict = .opened d.enclosing name ∧
      ∀ v ∈ inner, d.enclosing <+: v.enclosing

theorem Contained.append {enclosing : Path} {xs ys : List Visit} (hxs : Contained enclosing xs)
    (hys : Contained enclosing ys) : Contained enclosing (xs ++ ys) := by
  intro before d behind h
  rcases append_eq_append_cons h with ⟨rest, h'⟩ | ⟨others, rfl, h'⟩
  · exact hxs before d rest h'
  · rcases hys others d behind h' with heq | ⟨outer, b, inner, name, rfl, hopened, hinner⟩
    · exact .inl heq
    · exact .inr ⟨xs ++ outer, b, inner, name, by simp, hopened, hinner⟩

theorem Contained.singleton (v : Visit) : Contained v.enclosing [v] := by
  intro before d behind h
  cases before with
  | nil =>
    obtain ⟨rfl, -⟩ := List.cons.inj h
    exact .inl rfl
  | cons x before => simp at h

/-- A visit that opens a block, and the visits inside of the block. -/
theorem Contained.cons {v : Visit} {path : Path} {name : Span} {visits : List Visit}
    (hv : v.verdict = .opened path name) (hinside : ∀ d ∈ visits, path <+: d.enclosing)
    (h : Contained path visits) : Contained v.enclosing (v :: visits) := by
  intro before d behind heq
  cases before with
  | nil =>
    obtain ⟨rfl, -⟩ := List.cons.inj heq
    exact .inl rfl
  | cons x before =>
    obtain ⟨rfl, hvisits⟩ := List.cons.inj heq
    rcases h before d behind hvisits with hroot | ⟨outer, b, inner, name', rfl, hopened, hinner⟩
    · refine .inr ⟨[], v, before, name, rfl, by rw [hv, hroot], fun w hw => ?_⟩
      rw [hroot]
      exact hinside w (by rw [hvisits]; exact List.mem_append_left _ hw)
    · exact .inr ⟨v :: outer, b, inner, name', rfl, hopened, hinner⟩

mutual

theorem prefix_of_visitsOfItem (frame : Frame) : ∀ (enclosing : Path) (p : Progress) (item : Item),
    ∀ v ∈ visitsOfItem frame enclosing p item, enclosing <+: v.enclosing
  | enclosing, p, .assignment a => by simp [visitsOfItem]
  | enclosing, p, .block kind body span => by
    rw [visitsOfItem]
    have hjudged := judged_block frame p enclosing kind body span
    cases h : groupVerdict frame.rule p.log enclosing kind with
    | opened path name =>
      rw [h] at hjudged
      obtain ⟨rfl, -⟩ := hjudged.of_opened
      refine List.forall_mem_cons.2 ⟨List.prefix_refl _, fun v hv => ?_⟩
      exact (List.prefix_append _ _).trans
        (prefix_of_visitsOfItems frame _ (p.record frame.rule (.opened _ name)) body v hv)
    | colored _ _ _ | flagged _ _ _ _ | noted _ _ _ | rejected _ _ | incomplete _ => simp

theorem prefix_of_visitsOfItems (frame : Frame) : ∀ (enclosing : Path) (p : Progress)
    (items : List Item), ∀ v ∈ visitsOfItems frame enclosing p items, enclosing <+: v.enclosing
  | _, _, [] => by simp [visitsOfItems]
  | enclosing, p, item :: items => by
    rw [visitsOfItems]
    exact List.forall_mem_append.2 ⟨prefix_of_visitsOfItem frame enclosing p item,
      prefix_of_visitsOfItems frame enclosing (walkItem frame enclosing p item) items⟩

end

mutual

theorem contained_visitsOfItem (frame : Frame) : ∀ (enclosing : Path) (p : Progress) (item : Item),
    Contained enclosing (visitsOfItem frame enclosing p item)
  | enclosing, p, .assignment a => .singleton ⟨frame.rule, enclosing, .assignment a, _⟩
  | enclosing, p, .block kind body span => by
    rw [visitsOfItem]
    cases h : groupVerdict frame.rule p.log enclosing kind with
    | opened path name =>
      exact Contained.cons (v := ⟨frame.rule, enclosing, .block kind body span, .opened path name⟩)
        rfl (prefix_of_visitsOfItems frame path _ body)
        (contained_visitsOfItems frame path (p.record frame.rule (.opened path name)) body)
    | colored _ _ _ | flagged _ _ _ _ | noted _ _ _ | rejected _ _ | incomplete _ =>
      exact .singleton ⟨frame.rule, enclosing, .block kind body span, _⟩

/-- **The visits to the items of a block stand together.** -/
theorem contained_visitsOfItems (frame : Frame) : ∀ (enclosing : Path) (p : Progress)
    (items : List Item), Contained enclosing (visitsOfItems frame enclosing p items)
  | _, _, [] => by intro before d behind h; simp [visitsOfItems] at h
  | enclosing, p, item :: items => by
    rw [visitsOfItems]
    exact (contained_visitsOfItem frame enclosing p item).append
      (contained_visitsOfItems frame enclosing (walkItem frame enclosing p item) items)

end

/-! ## What is visited is declared -/

mutual

theorem declared_of_visitsOfItem (frame : Frame) : ∀ (enclosing : Path) (p : Progress)
    (item : Item), ∀ v ∈ visitsOfItem frame enclosing p item, v.path ∈ item.declared enclosing
  | enclosing, p, .assignment a => by simp [visitsOfItem, Item.declared, Visit.path, Item.name]
  | enclosing, p, .block kind body span => by
    rw [visitsOfItem, Item.declared]
    have hjudged := judged_block frame p enclosing kind body span
    cases h : groupVerdict frame.rule p.log enclosing kind with
    | opened path name =>
      rw [h] at hjudged
      obtain ⟨rfl, -⟩ := hjudged.of_opened
      refine List.forall_mem_cons.2 ⟨List.mem_cons_self, fun v hv => List.mem_cons_of_mem _ ?_⟩
      exact declared_of_visitsOfItems frame _ (p.record frame.rule (.opened _ name)) body v hv
    | colored _ _ _ | flagged _ _ _ _ | noted _ _ _ | rejected _ _ | incomplete _ =>
      simp [Visit.path, Item.name]

/-- **The paths of all visits are declared.** -/
theorem declared_of_visitsOfItems (frame : Frame) : ∀ (enclosing : Path) (p : Progress)
    (items : List Item), ∀ v ∈ visitsOfItems frame enclosing p items,
      v.path ∈ declaredByAll enclosing items
  | _, _, [] => by simp [visitsOfItems]
  | enclosing, p, item :: items => by
    rw [visitsOfItems, declaredByAll]
    refine List.forall_mem_append.2 ⟨fun v hv => List.mem_append_left _ ?_,
      fun v hv => List.mem_append_right _ ?_⟩
    · exact declared_of_visitsOfItem frame enclosing p item v hv
    · exact declared_of_visitsOfItems frame enclosing (walkItem frame enclosing p item) items v hv

end

/-! ## What is not defined yet -/

/-- A path that a later visit takes is not defined. -/
theorem Tour.defines_of_later {frame : Frame} {start : Progress} {items : List Item}
    {earlier later : List Visit} {v d : Visit} {path : Path}
    (h : Tour frame start items (earlier ++ v :: later)) (hd : d ∈ later)
    (htaken : d.verdict.taken? = some path) :
    (start.after frame.rule earlier).log.defines path = false := by
  obtain ⟨between, behind, rfl⟩ := List.append_of_mem hd
  have hsplit : earlier ++ v :: (between ++ d :: behind) =
      (earlier ++ v :: between) ++ d :: behind := by simp
  rw [hsplit] at h
  have hfree := (h.judged.taken htaken).2
  rw [Progress.after_append, Progress.log_after, Log.takes, List.any_append,
    Bool.or_eq_false_iff] at hfree
  refine List.any_eq_false.2 fun x hx hdefined => List.any_eq_false.1 hfree.1 x hx ?_
  obtain ⟨⟨p, name⟩, hsymbol, rfl⟩ := Option.map_eq_some_iff.1 (beq_iff_eq.1 hdefined)
  exact beq_iff_eq.2 (Verdict.taken?_of_symbol? hsymbol)

namespace Chapter

variable {table : BlockTable} {body : Body} {c : Chapter} {earlier later : List Visit}
  {v d : Visit} {a b : Attribute} {color : Color} {reference : Path}

theorem contained (c : Chapter) : Contained [c.rule.name] c.visits :=
  contained_visitsOfItems c.frame [c.rule.name] c.start c.block.body

theorem path_mem_declared (hv : v ∈ c.visits) : v.path ∈ c.frame.declared :=
  declared_of_visitsOfItems c.frame [c.rule.name] c.start c.block.body v hv

/-- A path inside of the block of a chapter is defined by a visit of the chapter. -/
theorem exists_visit_of_symbol (h : Analysis.Regular table body)
    (hc : c ∈ Analysis.chapters table body) {x : Verdict} (hx : x ∈ c.log) {name : Span}
    (hsymbol : x.symbol? = some (reference, name)) (hhead : reference.head? = some c.rule.name)
    (hdeep : reference ≠ [c.rule.name]) : ∃ w ∈ c.visits, w.verdict = x := by
  have hlog : x ∈ (Analysis.ofBody table body []).log :=
    Analysis.log_subset_of_mem_chapters hc x hx
  have hfinding : ∃ f ∈ Analysis.findings table body, f.verdict = x := by
    rcases Analysis.exists_finding_of_mem_log hlog with hf | ⟨e, -, he⟩
    · exact hf
    · obtain ⟨d, rfl, -⟩ := warning_of_mem_completenessVerdicts he
      cases hsymbol
  obtain ⟨f, hf, rfl⟩ := hfinding
  rcases List.mem_append.1 hf with hf | hf
  · have hmeta := Analysis.head?_of_opening hf hsymbol
    rw [hhead] at hmeta
    refine absurd ?_ h.noMeta
    rw [← Option.some.inj hmeta]
    exact List.mem_map_of_mem (Analysis.rule_mem_of_mem_chapters hc)
  · obtain ⟨e, he, hf⟩ := List.mem_flatMap.1 hf
    have hname := head?_of_symbol? hf hsymbol
    rw [hhead] at hname
    obtain rfl : c = e := Analysis.eq_of_ruleName h.names he hc (Option.some.inj hname)
    rcases List.mem_cons.1 hf with rfl | hf
    · cases hsymbol
      exact absurd rfl hdeep
    · obtain ⟨w, hw, rfl⟩ := List.mem_map.1 hf
      exact ⟨w, hw, rfl⟩

/-- The path of a colored attribute with `color` behind it is defined by nothing: an attribute is
no block. -/
theorem defines_own (h : Analysis.Regular table body) (hc : c ∈ Analysis.chapters table body)
    (hvisits : c.visits = earlier ++ later) (hd : d ∈ c.visits) (hb : d.ResolvesTo b color) :
    (c.start.after c.rule earlier).log.defines (d.path ++ [colorKey]) = false := by
  refine List.any_eq_false.2 fun x hx hdefined => ?_
  obtain ⟨⟨p, name⟩, hsymbol, rfl⟩ := Option.map_eq_some_iff.1 (beq_iff_eq.1 hdefined)
  have hlog : x ∈ c.log := by
    rw [Chapter.log, hvisits, Progress.after_append, Progress.log_after]
    exact List.mem_append_left _ hx
  obtain ⟨names, henclosing, -⟩ := c.tour.enclosing_eq hd
  obtain ⟨w, hw, rfl⟩ := exists_visit_of_symbol h hc hlog hsymbol
    (by rw [Visit.path, henclosing]; rfl) (by rw [Visit.path, henclosing]; simp)
  have hpath := c.tour.path_of_taken hw (Verdict.taken?_of_symbol? hsymbol)
  refine c.tour.enclosing_ne_path hw hd hb ?_
  rw [Visit.path] at hpath
  exact (List.append_inj_left' hpath rfl).symm

/-- A reference to the path that a later visit takes is a circle. -/
theorem cycle?_of_later (hvisits : c.visits = earlier ++ v :: later) (hd : d ∈ later)
    (htaken : d.verdict.taken? = some reference) (enclosing : Path) :
    (c.frame.cycle? (c.start.after c.rule earlier).log enclosing reference).isSome := by
  have htour := c.tour
  rw [hvisits] at htour
  have hmem : d ∈ c.visits := by
    rw [hvisits]
    exact List.mem_append_right _ (List.mem_cons_of_mem v hd)
  have hdeclared : reference ∈ c.frame.declared := by
    rw [c.tour.path_of_taken hmem htaken]
    exact path_mem_declared hmem
  have hopen : (c.start.after c.rule earlier).log.defines reference = false :=
    htour.defines_of_later hd htaken
  unfold Frame.cycle?
  split
  · rfl
  · rw [if_pos ⟨hdeclared, hopen⟩]
    rfl

/-- A reference to a block that holds a later visit is a circle: the block is open, or it comes
later, too. -/
theorem cycle?_of_enclosing (hvisits : c.visits = earlier ++ v :: later)
    (hv : ∀ path name, v.verdict ≠ .opened path name) (hd : d ∈ later) :
    (c.frame.cycle? (c.start.after c.rule earlier).log v.enclosing d.enclosing).isSome := by
  by_cases hprefix : d.enclosing <+: v.enclosing
  · unfold Frame.cycle?
    rw [if_pos (List.isPrefixOf_iff_prefix.2 hprefix)]
    rfl
  · obtain ⟨between, behind, rfl⟩ := List.append_of_mem hd
    have hsplit : c.visits = (earlier ++ v :: between) ++ d :: behind := by
      rw [hvisits]
      simp
    rcases c.contained _ d behind hsplit with hroot | ⟨outer, b, inner, name, hb, hopened, hinner⟩
    · obtain ⟨names, henclosing, -⟩ := c.tour.enclosing_eq
        (show v ∈ c.visits by rw [hvisits]; simp)
      refine absurd ?_ hprefix
      rw [hroot, henclosing]
      exact ⟨names, rfl⟩
    · -- the visit that opens the block of `d` stands before, at or behind `v`
      rcases append_eq_append_cons hb with ⟨rest, rfl⟩ | ⟨others, rfl, hothers⟩
      · have hinnerEq : rest ++ v :: between = inner := by simpa using hb
        exact absurd (hinner v (by rw [← hinnerEq]; simp)) hprefix
      · cases others with
        | nil =>
          obtain ⟨rfl, -⟩ := List.cons.inj hothers
          exact absurd hopened (hv _ _)
        | cons x others =>
          obtain ⟨-, hbetween⟩ := List.cons.inj hothers
          have hb : b ∈ between ++ d :: behind := by
            rw [hbetween]
            simp
          exact cycle?_of_later hvisits hb (by rw [hopened]; rfl) v.enclosing

/-- **A reference to the color of a later attribute is a circle**, except where it names the own
color of the attribute by a `color` that no item spells out. -/
theorem cycle?_of_namedBy (h : Analysis.Regular table body)
    (hc : c ∈ Analysis.chapters table body) (hvisits : c.visits = earlier ++ v :: later)
    (hv : ∀ path name, v.verdict ≠ .opened path name) (hd : d ∈ later)
    (hb : d.ResolvesTo b color) (hnamed : d.NamedBy reference) :
    (c.frame.cycle? (c.start.after c.rule earlier).log v.enclosing reference).isSome ∨
      reference = d.path ++ [colorKey] ∧ reference ∉ c.frame.declared := by
  have hmem : d ∈ c.visits := by
    rw [hvisits]
    exact List.mem_append_right _ (List.mem_cons_of_mem v hd)
  have htaken : d.verdict.taken? = some d.path := by
    rw [hb.2]
    rfl
  unfold Visit.NamedBy Visit.nodePath at hnamed
  split at hnamed
  · rename_i hown
    have hpath : d.enclosing ++ [colorKey] = d.path := by rw [Visit.path, hown.2]
    rw [hpath] at hnamed
    rcases hnamed with rfl | rfl
    · exact .inl (cycle?_of_enclosing hvisits hv hd)
    · exact .inl (cycle?_of_later hvisits hd htaken _)
  · rcases hnamed with rfl | rfl
    · exact .inl (cycle?_of_later hvisits hd htaken _)
    · by_cases hdeclared : d.path ++ [colorKey] ∈ c.frame.declared
      · left
        unfold Frame.cycle?
        split
        · rfl
        · rw [if_pos ⟨hdeclared, defines_own h hc hvisits hmem hb⟩]
          rfl
      · exact .inr ⟨rfl, hdeclared⟩

end Chapter

/-! ## What is reported -/

/-- The problem is that a value cannot be worked out. -/
def Problem.isFailure : Problem → Bool
  | .circular _ _ _ => true
  | .unresolved _ => true
  | _ => false

/-- The value of the visited attribute cannot be worked out, and this is the problem. -/
structure Visit.Fails (v : Visit) (a : Attribute) (problem : Problem) : Prop where
  item : v.item = .assignment a
  verdict : v.verdict = .rejected (some v.path) ⟨problem, a.value.span⟩
  failure : problem.isFailure = true

/-- The attribute of a visit whose value cannot be worked out, and the problem. -/
def Visit.failure? (v : Visit) : Option (Attribute × Problem) :=
  match v.item, v.verdict with
  | .assignment a, .rejected (some path) d =>
    if path = v.path ∧ d.span = a.value.span ∧ d.problem.isFailure = true then some (a, d.problem)
    else none
  | _, _ => none

theorem Visit.fails_of_failure? {v : Visit} {a : Attribute} {problem : Problem}
    (h : v.failure? = some (a, problem)) : v.Fails a problem := by
  unfold Visit.failure? at h
  split at h
  · rename_i b path d hitem hverdict
    split at h
    · rename_i hcond
      obtain ⟨rfl, hspan, hfailure⟩ := hcond
      cases h
      exact ⟨hitem, by rw [hverdict, ← hspan], hfailure⟩
    · cases h
  · cases h

/-- What cannot be worked out does not resolve in the trees so far, and the frame complains of
it. -/
theorem Tour.complaint_of_fails {frame : Frame} {start : Progress} {items : List Item}
    {earlier later : List Visit} {v : Visit} {a : Attribute} {problem : Problem}
    (h : Tour frame start items (earlier ++ v :: later)) (hv : v.Fails a problem) :
    ∃ failure,
      (frame.visible (start.after frame.rule earlier).tree).resolve a.value = .error failure ∧
      problem = frame.complaint (start.after frame.rule earlier).log v.enclosing a failure := by
  obtain ⟨hitem, hverdict, hfailure⟩ := hv
  have hjudged := h.judged
  rw [hitem, hverdict] at hjudged
  generalize v.path = path at hjudged
  cases hjudged with
  | notTruth hname hfree hflag hvalue => cases hfailure
  | failedFlag hname hfree hflag hvalue => exact ⟨_, by rw [Scopes.resolve, hvalue]; rfl, rfl⟩
  | failed hname hfree hflag hvalue => exact ⟨_, hvalue, rfl⟩

/-- With one reference in a value, the complaint is about this one, if it is about any. -/
theorem Frame.complaint_of_references {frame : Frame} {a : Attribute} {reference : Path}
    (hself : frame.rule.selfReferencing = true) (h : a.value.references = [reference]) (log : Log)
    (enclosing : Path) (failure : EvalError) :
    frame.complaint log enclosing a failure =
      match frame.cycle? log enclosing reference with
      | some reason => .circular a.name.name reference reason
      | none => .unresolved failure := by
  unfold Frame.complaint
  rw [if_pos hself, h]
  simp only [List.findSome?_cons, List.findSome?_nil]
  cases frame.cycle? log enclosing reference <;> rfl

/-- The paths that the items of the first block of the name declare. -/
def Body.declaredIn (body : Body) (name : String) : List Path :=
  match body.block? name with
  | some block => declaredByAll [name] block.body
  | none => []

/-- The reference ends in a `color` that no item of the block spells out. -/
def Body.ImpliesColor (body : Body) (name : String) (reference : Path) : Prop :=
  reference.getLast? = some colorKey ∧ reference ∉ body.declaredIn name

namespace Analysis

variable {table : BlockTable} {body : Body} {flaws : List Flaw} {before behind : List Chapter}
  {c : Chapter} {earlier later : List Visit} {v : Visit} {a : Attribute} {color : Color}
  {problem : Problem}

theorem declaredIn_of_mem_chapters (hc : c ∈ chapters table body) :
    body.declaredIn c.rule.name = c.frame.declared := by
  rw [Body.declaredIn, block?_of_mem_chapters hc]
  rfl

/-- The trees that an item sees have no node called `color`. -/
theorem reservesColor_of_visible (hproper : table.Proper)
    (hchapters : chapters table body = before ++ c :: behind)
    (hvisits : c.visits = earlier ++ later) {name : String} {tree : Node}
    (htree : (c.frame.visible (c.start.after c.rule earlier).tree).get? name = some tree) :
    tree.ReservesColor := by
  have hreserves : ∀ e ∈ chapters table body, e.rule.ReservesColor := fun e he =>
    hproper.reserves _ (rule_mem_of_mem_chapters he)
  have htour := c.tour
  rw [hvisits] at htour
  rcases (get?_visible hproper.names hchapters _ _ _).1 htree with ⟨e, he, -, rfl⟩ | ⟨-, -, rfl⟩
  · exact e.tour.reservesColor rfl (hreserves e (by rw [hchapters]; simp [he]))
  · exact htour.beginning.reservesColor rfl (hreserves c (by rw [hchapters]; simp))

/-- **What is reported where only its place keeps an attribute from resolving.**  There is one
reference in its value, to something behind the attribute or around it.  This is a circle, except
where the reference ends in a `color` that no item spells out: that is a path which is not
defined. -/
theorem problem_of_forward (hproper : table.Proper) (h : Regular table body)
    (hchapters : chapters table body = before ++ c :: behind)
    (hvisits : c.visits = earlier ++ v :: later) (hself : c.rule.selfReferencing = true)
    (hkey : c.rule.name ≠ colorKey) (hv : v.Fails a problem)
    (hfinished : (c.frame.visible c.tree).resolve a.value = .ok color) :
    ∃ reference, a.value.references = [reference] ∧
      (¬ body.ImpliesColor c.rule.name reference →
        ∃ reason, problem = .circular a.name.name reference reason) ∧
      (body.ImpliesColor c.rule.name reference →
        ∃ failure, problem = .unresolved failure ∧ failure.code = "E2001") := by
  have hc : c ∈ chapters table body := by rw [hchapters]; simp
  have hvmem : v ∈ c.visits := by rw [hvisits]; simp
  have htour := c.tour
  rw [hvisits] at htour
  obtain ⟨failure, hfailed, rfl⟩ := htour.complaint_of_fails hv
  -- the value fails because of one path, which is named by a visit that is not behind
  obtain ⟨root, rest, span, hreferences, ⟨color', hpath⟩, hpathFailed⟩ :=
    Scopes.exists_reference hfinished hfailed
  have hfailed : (c.frame.visible (c.start.after c.rule earlier).tree).resolve
      (.path root rest span) = .error failure := hpathFailed
  obtain ⟨d, hd, ⟨b, hb⟩, hnamed⟩ : ∃ d ∈ later, (∃ b, d.ResolvesTo b color') ∧
      d.NamedBy ((root :: rest).map Ident.name) := by
    have hnot := mt (resolve_path_iff hproper hchapters hvisits root rest span color').2 (by
      rw [hfailed]
      exact nofun)
    rcases (resolve_path_iff hproper hchapters (List.append_nil c.visits).symm root rest span
      color').1 hpath with hbefore | ⟨-, d, hd, hb, hnamed⟩
    · exact absurd (.inl hbefore) hnot
    · rw [hvisits] at hd
      rcases List.mem_append.1 hd with hd | hd
      · exact absurd (.inr ⟨hself, d, hd, hb, hnamed⟩) hnot
      · rcases List.mem_cons.1 hd with rfl | hd
        · obtain ⟨b, hb⟩ := hb
          have hverdict := hv.verdict
          rw [hb.2] at hverdict
          cases hverdict
        · exact ⟨d, hd, hb, hnamed⟩
  have hnotOpened : ∀ path name, v.verdict ≠ .opened path name := by
    intro path name hopened
    rw [hv.verdict] at hopened
    cases hopened
  obtain ⟨names, henclosing, hnames, -⟩ := c.tour.enclosing_eq hvmem
  have hroot : root.name = c.rule.name := by
    have hdmem : d ∈ c.visits := by
      rw [hvisits]
      exact List.mem_append_right _ (List.mem_cons_of_mem v hd)
    have hnode : d.nodePath = c.rule.name :: d.nodePath.tail := c.tour.nodePath_eq hdmem
    unfold Visit.NamedBy at hnamed
    rw [hnode] at hnamed
    rcases hnamed with heq | heq <;> exact (List.cons.inj heq).1
  have hreport : c.frame.complaint (c.start.after c.rule earlier).log v.enclosing a failure = _ :=
    Frame.complaint_of_references hself hreferences (c.start.after c.rule earlier).log v.enclosing
      failure
  refine ⟨_, hreferences, fun himplied => ?_, fun himplied => ?_⟩
  · rcases Chapter.cycle?_of_namedBy h hc hvisits hnotOpened hd hb hnamed with
      hsome | ⟨heq, hdeclared⟩
    · obtain ⟨reason, hreason⟩ := Option.isSome_iff_exists.1 hsome
      rw [hreason] at hreport
      exact ⟨reason, hreport⟩
    · refine absurd ⟨?_, ?_⟩ himplied
      · rw [heq, List.getLast?_concat]
      · rw [declaredIn_of_mem_chapters hc]
        exact hdeclared
  · obtain ⟨hlast, hdeclared⟩ := himplied
    have hnoCycle : c.frame.cycle? (c.start.after c.rule earlier).log v.enclosing
        ((root :: rest).map Ident.name) = none := by
      unfold Frame.cycle?
      rw [declaredIn_of_mem_chapters hc] at hdeclared
      rw [if_neg, if_neg fun hlater => hdeclared hlater.1]
      intro hprefix
      have hmem := (List.isPrefixOf_iff_prefix.1 hprefix).subset (List.mem_of_getLast? hlast)
      rw [henclosing] at hmem
      rcases List.mem_cons.1 hmem with heq | hmem
      · exact hkey heq.symm
      · exact hnames hmem
    have hbehind : (rest.map Ident.name).getLast? = some colorKey := by
      cases rest with
      | nil => exact absurd (Option.some.inj hlast) (hroot ▸ hkey)
      | cons ident rest =>
        rwa [List.map_cons, List.map_cons, List.getLast?_cons_cons] at hlast
    rw [hnoCycle] at hreport
    exact ⟨failure, hreport, Scopes.code_of_resolve_path
      (fun tree htree => reservesColor_of_visible hproper hchapters hvisits htree) hbehind hfailed⟩

/-! ## The finished trees of a block and of those before it -/

/-- The finished trees of the block of the rule, and of the blocks before it in the table. -/
def upTo (a : Analysis) (table : BlockTable) (rule : BlockRule) : Scopes :=
  a.scopes.filter fun scope =>
    ∃ r ∈ table, r.name = scope.1 ∧ (r = rule ∨ table.Before r rule)

/-- These are what an item at the end of the block sees, if the block may refer to itself. -/
theorem get?_upTo (hproper : table.Proper)
    (hchapters : chapters table body = before ++ c :: behind)
    (hself : c.rule.selfReferencing = true) {name : String} {tree : Node}
    (h : ((ofBody table body flaws).upTo table c.rule).get? name = some tree) :
    (c.frame.visible c.tree).get? name = some tree := by
  have hc : c ∈ chapters table body := by rw [hchapters]; simp
  have hkeys : (ofBody table body flaws).scopes.keys.Nodup := by
    rw [scopes_ofBody]
    exact Entries.nodup_keys_putAll _ List.nodup_nil
  have hkept : ((ofBody table body flaws).upTo table c.rule).keys.Nodup :=
    hkeys.sublist (List.Sublist.map _ List.filter_sublist)
  obtain ⟨hscope, hrule⟩ := List.mem_filter.1 ((Entries.get?_eq_some_iff hkept).1 h)
  obtain ⟨e, he, rfl, rfl⟩ :=
    (get?_scopes hproper.names _ _).1 ((Entries.get?_eq_some_iff hkeys).2 hscope)
  obtain ⟨r, hr, hname, hbefore⟩ := of_decide_eq_true hrule
  obtain rfl : r = e.rule :=
    List.inj_on_of_nodup_map hproper.names hr (rule_mem_of_mem_chapters he) hname
  refine (get?_visible hproper.names hchapters _ _ _).2 ?_
  rcases hbefore with hown | hbefore
  · obtain rfl := eq_of_rule_eq hproper.nodup hc he hown
    exact .inr ⟨hself, rfl, rfl⟩
  · exact .inl ⟨e, (mem_chapters_before_iff hproper.nodup hchapters he).2 hbefore, rfl, rfl⟩

theorem resolve_visible_of_upTo (hproper : table.Proper)
    (hchapters : chapters table body = before ++ c :: behind)
    (hself : c.rule.selfReferencing = true) {e : Expr}
    (h : ((ofBody table body flaws).upTo table c.rule).resolve e = .ok color) :
    (c.frame.visible c.tree).resolve e = .ok color := by
  refine Scopes.resolve_mono (fun name tree htree => ?_) h
  have hvisible := get?_upTo hproper hchapters hself htree
  exact ⟨tree, hvisible, .refl tree,
    reservesColor_of_visible hproper hchapters (List.append_nil c.visits).symm hvisible⟩

/-- **References that come too early are reported as circles.**  In every source, and under the
standard table, take an attribute of a self-referencing block whose value cannot be worked out, but
resolves in the finished trees of its block and of the blocks before it.  Its error is that the one
reference in the value is circular, except where that reference ends in a `color` that no item
spells out: then it is that a path is not defined. -/
theorem reported_of_forward (source : String)
    (hv : v ∈ visits .standard (Body.read source).items) (hself : v.rule.selfReferencing = true)
    (hfails : v.Fails a problem)
    (hfinished : ((ofSource .standard source).upTo .standard v.rule).resolve a.value =
      .ok color) :
    ∃ reference, a.value.references = [reference] ∧
      (¬ Body.ImpliesColor (Body.read source).items v.rule.name reference →
        ∃ reason, problem = .circular a.name.name reference reason) ∧
      (Body.ImpliesColor (Body.read source).items v.rule.name reference →
        ∃ failure, problem = .unresolved failure ∧ failure.code = "E2001") := by
  have hproper := BlockTable.proper_standard
  have hregular : Regular .standard (Body.read source).items :=
    ⟨hproper.names, by decide, hasPalette_of_mem_visits hv⟩
  obtain ⟨c, hc, hvisit⟩ := mem_visits.1 hv
  obtain ⟨before, behind, hchapters⟩ := List.append_of_mem hc
  obtain ⟨earlier, later, hvisits⟩ := List.append_of_mem hvisit
  have hkey : ∀ rule ∈ BlockTable.standard, rule.name ≠ colorKey := by decide
  have hrule : v.rule = c.rule := c.tour.rule v hvisit
  rw [hrule] at hself hfinished ⊢
  exact problem_of_forward hproper hregular hchapters hvisits hself
    (hkey c.rule (rule_mem_of_mem_chapters hc)) hfails
    (resolve_visible_of_upTo hproper hchapters hself hfinished)

theorem eq_ok_of_toOption {ε α : Type} {result : Except ε α} {value : α}
    (h : result.toOption = some value) : result = .ok value := by
  cases result with
  | error cause => cases h
  | ok found => exact congrArg Except.ok (Option.some.inj h)

/-- An attribute, and before it a reference to it. -/
def earlySource : String := "palette \x7b\n  x = palette.a\n  a = #112233\n\x7d\n"

theorem reported_of_forward_earlySource :
    ∃ v ∈ visits .standard (Body.read earlySource).items, ∃ a problem color,
      v.rule.selfReferencing = true ∧ v.Fails a problem ∧
      ((ofSource .standard earlySource).upTo .standard v.rule).resolve a.value = .ok color ∧
      ∃ reference, a.value.references = [reference] ∧
        (¬ Body.ImpliesColor (Body.read earlySource).items v.rule.name reference →
          ∃ reason, problem = .circular a.name.name reference reason) ∧
        (Body.ImpliesColor (Body.read earlySource).items v.rule.name reference →
          ∃ failure, problem = .unresolved failure ∧ failure.code = "E2001") := by
  have hfound : ∃ v ∈ visits .standard (Body.read earlySource).items,
      v.rule.selfReferencing = true ∧ (v.failure?.bind fun found =>
        (((ofSource .standard earlySource).upTo .standard v.rule).resolve found.1.value).toOption) =
          some ⟨17, 34, 51⟩ := by
    decide +kernel
  obtain ⟨v, hv, hself, hresolved⟩ := hfound
  obtain ⟨⟨a, problem⟩, hfailure, hcolor⟩ := Option.bind_eq_some_iff.1 hresolved
  have hfails := Visit.fails_of_failure? hfailure
  have hfinished := eq_ok_of_toOption hcolor
  exact ⟨v, hv, a, problem, _, hself, hfails, hfinished,
    reported_of_forward earlySource hv hself hfails hfinished⟩

/-- An attribute, and before it a reference to its own color. -/
def impliedSource : String := "palette \x7b\n  x = palette.a.color\n  a = #112233\n\x7d\n"

/-- Such a reference need not be reported as a circle: here it is an unknown path. -/
theorem not_always_circular :
    ¬ ∀ (source : String) (v : Visit) (a : Attribute) (problem : Problem) (color : Color),
      v ∈ visits .standard (Body.read source).items → v.rule.selfReferencing = true →
      v.Fails a problem →
      ((ofSource .standard source).upTo .standard v.rule).resolve a.value = .ok color →
      ∃ reference reason, problem = .circular a.name.name reference reason := by
  intro hall
  have hfound : ∃ v ∈ visits .standard (Body.read impliedSource).items,
      v.rule.selfReferencing = true ∧
      v.failure?.map Prod.snd = some (.unresolved (.unknownPath ["palette", "a", "color"])) ∧
      (v.failure?.bind fun found =>
        (((ofSource .standard impliedSource).upTo .standard v.rule).resolve
          found.1.value).toOption) = some ⟨17, 34, 51⟩ := by
    decide +kernel
  obtain ⟨v, hv, hself, hproblem, hresolved⟩ := hfound
  obtain ⟨⟨a, problem⟩, hfailure, hcolor⟩ := Option.bind_eq_some_iff.1 hresolved
  obtain ⟨reference, reason, hcircular⟩ := hall impliedSource v a problem _ hv hself
    (Visit.fails_of_failure? hfailure) (eq_ok_of_toOption hcolor)
  rw [hfailure, hcircular] at hproblem
  cases hproblem

end Analysis

end ColorTheme

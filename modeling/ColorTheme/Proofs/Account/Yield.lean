import ColorTheme.Proofs.Account.Reached
import ColorTheme.Proofs.Walk.Tree

/-!
# What an analysis yields

Every entry of a result comes from an accepted item.

* `Analysis.errors_ofBody` : the errors are those of the wording and those of the rejected items.
* `Analysis.exists_colors_of_scope`, `Analysis.exists_path_of_scope` : each color in a tree is that
  of an accepted attribute, and each node is on the way to one.
* `Analysis.exists_colors_of_style` : so is each style, with its flags.
-/

set_option autoImplicit false

namespace ColorTheme

/-- The finding gives the node at the path its color: the path is that of the item, or that of the
block around it if the item is called `color`. -/
def Finding.Colors (f : Finding) (path : Path) (c : Color) : Prop :=
  f.Accepted ∧ (f.path = path ∨ f.path = path ++ [colorKey]) ∧
    f.verdict.location?.map ColorLocation.color = some c

/-- The style has the flag. -/
def Style.has (style : Style) : StyleFlag → Bool
  | .bold => style.bold
  | .italic => style.italic
  | .underline => style.underline

theorem Visit.path_eq_or (v : Visit) :
    v.path = v.nodePath ∨ v.path = v.nodePath ++ [colorKey] := by
  unfold Visit.nodePath
  split
  · rename_i hown
    refine .inr ?_
    rw [Visit.path, hown.2]
  · exact .inl rfl

namespace Analysis

variable {table : BlockTable} {body : Body} {flaws : List Flaw} {f : Finding} {c : Chapter}

/-! ## Errors -/

theorem Rejected.diagnostic? (h : f.Rejected) :
    ∃ d, f.verdict.diagnostic? = some d ∧ d.isError = true := by
  obtain ⟨taken, d, hverdict, herror, -⟩ := h
  exact ⟨d, by rw [hverdict]; rfl, herror⟩

theorem Accepted.diagnostic? (h : f.Accepted) : f.verdict.diagnostic? = none := by
  unfold Finding.Accepted at h
  generalize f.verdict = v at h ⊢
  cases v <;> first | rfl | cases h

/-- **The errors of an analysis are those of the wording and those of the rejected items.** -/
theorem errors_ofBody (h : HasPalette table body) :
    (ofBody table body flaws).errors =
      flaws.map Diagnostic.ofFlaw ++ (findings table body).filterMap fun f => f.verdict.diagnostic? := by
  have hflaws : (flaws.map Diagnostic.ofFlaw).filter Diagnostic.isError =
      flaws.map Diagnostic.ofFlaw := by
    refine List.filter_eq_self.2 fun d hd => ?_
    obtain ⟨flaw, -, rfl⟩ := List.mem_map.1 hd
    rfl
  have hdiagnostics : (ofBody table body flaws).diagnostics =
      flaws.map Diagnostic.ofFlaw ++
        (ofBody table body flaws).log.filterMap Verdict.diagnostic? := by
    rw [ofBody_of_hasPalette h]
  have hwarning : ∀ d : Diagnostic, d.isError = false →
      (Verdict.incomplete d).diagnostic?.filter Diagnostic.isError = none := by
    intro d hd
    simp [Verdict.diagnostic?, hd]
  rw [errors, hdiagnostics, List.filter_append, hflaws, List.filter_filterMap,
    filterMap_log h (fun v => v.diagnostic?.filter Diagnostic.isError) hwarning]
  congr 1
  refine List.filterMap_congr fun f hf => ?_
  rcases accepted_or_rejected hf with haccepted | hrejected
  · rw [Accepted.diagnostic? haccepted]
    rfl
  · obtain ⟨d, hd, herror⟩ := Rejected.diagnostic? hrejected
    rw [hd]
    simp [herror]

/-! ## Entries read off the log -/

/-- What is read off the log, and not off a rejection, comes from an accepted item. -/
theorem exists_accepted_of_mem_log {α : Type} (h : HasPalette table body)
    (read : Verdict → Option α) (hincomplete : ∀ d, read (.incomplete d) = none)
    (hrejected : ∀ taken d, read (.rejected taken d) = none) {x : α}
    (hx : x ∈ (ofBody table body flaws).log.filterMap read) :
    ∃ f ∈ findings table body, f.Accepted ∧ read f.verdict = some x := by
  rw [filterMap_log h read (fun d _ => hincomplete d), List.mem_filterMap] at hx
  obtain ⟨f, hf, hx⟩ := hx
  refine ⟨f, hf, ?_, hx⟩
  rcases accepted_or_rejected hf with haccepted | ⟨taken, d, hverdict, -⟩
  · exact haccepted
  · rw [hverdict, hrejected] at hx
    cases hx

/-! ## Trees -/

/-- What a visited attribute resolves to colors its node. -/
theorem colors_of_resolvesTo (hc : c ∈ chapters table body) {v : Visit} (hv : v ∈ c.visits)
    {a : Attribute} {color : Color} (ha : v.ResolvesTo a color) :
    v.finding ∈ findings table body ∧ v.finding.Colors v.nodePath color := by
  have hf := finding_mem_of_visit hc hv
  have hsymbol : v.finding.verdict.symbol? = some (v.path, a.name.span) := by
    show v.verdict.symbol? = _
    rw [ha.2]
    rfl
  refine ⟨hf, (accepted_of_symbol? hf hsymbol).1, v.path_eq_or, ?_⟩
  show v.verdict.location?.map ColorLocation.color = _
  rw [ha.2]
  rfl

/-- Each color in a tree is that of an accepted attribute. -/
theorem exists_colors_of_scope (hnames : (table.map BlockRule.name).Nodup) {name : String}
    {tree : Node} (htree : (ofBody table body flaws).scopes.get? name = some tree)
    {path : List String} {color : Color} (hcolor : tree.colorAt path = some color) :
    ∃ f ∈ findings table body, f.Colors (name :: path) color := by
  obtain ⟨c, hc, rfl, rfl⟩ := (get?_scopes hnames _ _).1 htree
  obtain ⟨v, hv, ⟨a, ha⟩, hpath⟩ := (c.tour.colorAt_iff rfl _ _).1 hcolor
  have hpath : v.nodePath = c.rule.name :: path := hpath
  obtain ⟨hf, hcolors⟩ := colors_of_resolvesTo hc hv ha
  rw [hpath] at hcolors
  exact ⟨v.finding, hf, hcolors⟩

/-- Each node of a tree is its root, or it is on the way to an accepted attribute. -/
theorem exists_path_of_scope (hnames : (table.map BlockRule.name).Nodup) {name : String}
    {tree : Node} (htree : (ofBody table body flaws).scopes.get? name = some tree)
    {path : List String} (hpath : (tree.get? path).isSome) :
    path = [] ∨ ∃ f ∈ findings table body, f.Accepted ∧ f.verdict.location?.isSome ∧
      name :: path <+: f.path := by
  obtain ⟨c, hc, rfl, rfl⟩ := (get?_scopes hnames _ _).1 htree
  by_cases hroot : path = []
  · exact .inl hroot
  · obtain ⟨v, hv, ⟨a, color, ha⟩, hbelow⟩ := c.tour.exists_below rfl hpath hroot
    obtain ⟨hf, haccepted, -, hlocation⟩ := colors_of_resolvesTo hc hv ha
    refine .inr ⟨v.finding, hf, haccepted, ?_, ?_⟩
    · obtain ⟨location, hlocation, -⟩ := Option.map_eq_some_iff.1 hlocation
      rw [hlocation]
      rfl
    · show c.rule.name :: path <+: v.path
      rcases v.path_eq_or with heq | heq
      · rw [heq]
        exact hbelow
      · rw [heq]
        exact hbelow.trans (List.prefix_append _ _)

/-- A block has a tree only if it is accepted. -/
theorem exists_block_of_scope (hnames : (table.map BlockRule.name).Nodup) {name : String}
    {tree : Node} (htree : (ofBody table body flaws).scopes.get? name = some tree) :
    ∃ f ∈ findings table body, f.Accepted ∧ f.path = [name] := by
  obtain ⟨c, hc, rfl, -⟩ := (get?_scopes hnames _ _).1 htree
  have hf : (⟨[], c.block.item, .opened [c.rule.name] c.block.kind.span⟩ : Finding) ∈
      findings table body :=
    finding_mem_of_chapter hc List.mem_cons_self
  obtain ⟨haccepted, hpath, -⟩ := accepted_of_symbol? hf rfl
  exact ⟨_, hf, haccepted, hpath.symm⟩

/-! ## Styles -/

/-- A style has the color and the flags that accepted attributes give to its group. -/
theorem exists_colors_of_style {shown : String} {style : Style}
    (h : (shown, style) ∈ (ofBody table body flaws).styles) :
    ∃ group : Path, shown = Node.listed group.tail ∧
      (∃ f ∈ findings table body, f.Colors group style.color) ∧
      ∀ flag, style.has flag = true → ∃ f ∈ findings table body, f.Accepted ∧
        f.verdict.flag? = some (group, flag, true) := by
  obtain ⟨c, hc, hstyle⟩ := mem_styles h
  obtain ⟨⟨path, color⟩, hlisted, hstyle⟩ := List.mem_filterMap.1 hstyle
  dsimp only at hstyle
  split at hstyle
  · cases hstyle
  · cases hstyle
    refine ⟨c.rule.name :: path, rfl, ?_, ?_⟩
    · rw [c.tree_eq] at hlisted
      obtain ⟨v, hv, hmark⟩ := List.mem_filterMap.1 (Node.mem_colorsFrom_painted hlisted)
      obtain ⟨⟨a, ha⟩, hnode⟩ := (c.tour.mark?_eq_some_iff hv).1 hmark
      obtain ⟨hf, hcolors⟩ := colors_of_resolvesTo hc hv ha
      rw [hnode] at hcolors
      exact ⟨v.finding, hf, hcolors⟩
    · intro flag hflag
      have hlog : c.log.flag (c.rule.name :: path) flag = true := by
        cases flag <;> exact hflag
      obtain ⟨v, hv, hset⟩ := List.any_eq_true.1 hlog
      have hset : v.flag? = some (c.rule.name :: path, flag, true) := by simpa using hset
      have hmem : (c.rule.name :: path, flag, true) ∈
          (ofBody table body flaws).log.filterMap Verdict.flag? :=
        List.mem_filterMap.2 ⟨v, log_subset_of_mem_chapters hc v hv, hset⟩
      exact exists_accepted_of_mem_log (hasPalette_of_mem_chapters hc) Verdict.flag?
        (fun _ => rfl) (fun _ _ => rfl) hmem

end Analysis

end ColorTheme

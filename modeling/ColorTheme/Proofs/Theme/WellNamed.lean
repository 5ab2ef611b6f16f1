import ColorTheme.Proofs.Account.Symbols
import ColorTheme.Proofs.Entries
import ColorTheme.Proofs.Walk.Visibility
import ColorTheme.Theme.Target

/-!
# The names of a theme

* `Node.WellNamed` : at every depth, the children of a node have different names, none of which
  is `color`; `Node.WellNamed.setColor` : coloring a node keeps this, and makes no such child.
* `Theme.WellNamed` : the notes, blocks and styles of a theme have different names, and no block
  is called `meta` or `styles`.
* `Theme.wellNamed_of_ofAnalysis` : so it is with every theme that is settled.
-/

set_option autoImplicit false

namespace ColorTheme

/-! ## Trees -/

/-- The children of the node and of all nodes below have different names, none of them `color`. -/
inductive Node.WellNamed : Node → Prop
  | mk {own : Option Color} {children : Entries String Node} (distinct : children.keys.Nodup)
      (reserved : colorKey ∉ children.keys) (below : ∀ child ∈ children, WellNamed child.2) :
      WellNamed ⟨own, children⟩

namespace Node.WellNamed

variable {n : Node} {path : List String}

theorem blank : WellNamed .blank :=
  .mk List.nodup_nil List.not_mem_nil fun _ h => absurd h List.not_mem_nil

/-- Coloring a node makes the nodes on its way, and gives no name twice. -/
theorem setColor (h : n.WellNamed) (hpath : colorKey ∉ path) (c : Option Color) :
    (n.setColor path c).WellNamed := by
  induction path generalizing n with
  | nil =>
    cases h with
    | mk distinct reserved below => exact .mk distinct reserved below
  | cons name path ih =>
    rw [List.mem_cons, not_or] at hpath
    cases h with
    | @mk own children distinct reserved below =>
      refine .mk (Entries.nodup_keys_alter name _ distinct) (fun hmem => ?_) fun child hchild => ?_
      · exact (Entries.mem_keys_alter.1 hmem).elim reserved hpath.1
      · rcases Entries.mem_alter hchild with hchild | ⟨old, rfl, hold⟩
        · exact below child hchild
        · cases old with
          | none => exact ih blank hpath.2
          | some child => exact ih (below _ (hold child rfl)) hpath.2

theorem painted {marks : List (List String × Color)} (h : n.WellNamed)
    (hmarks : ∀ mark ∈ marks, colorKey ∉ mark.1) : (n.painted marks).WellNamed := by
  induction marks generalizing n with
  | nil => exact h
  | cons mark marks ih =>
    rw [List.forall_mem_cons] at hmarks
    exact ih (h.setColor hmarks.1 _) hmarks.2

end Node.WellNamed

/-- The finished tree of a block has names for its children that can be told apart. -/
theorem Chapter.wellNamed_tree {c : Chapter} (hrule : c.rule.ReservesColor) : c.tree.WellNamed := by
  rw [c.tree_eq]
  refine Node.WellNamed.blank.painted fun ⟨path, color⟩ hmark => ?_
  obtain ⟨v, hv, hmark⟩ := List.mem_filterMap.1 hmark
  obtain ⟨⟨a, ha⟩, hpath⟩ := (c.tour.mark?_eq_some_iff hv).1 hmark
  have hreserved := c.tour.color_not_mem_nodePath hrule hv ha
  rwa [hpath] at hreserved

/-! ## Themes -/

/-- All names of the theme can be told apart. -/
structure Theme.WellNamed (theme : Theme) : Prop where
  notes : theme.notes.keys.Nodup
  scopes : theme.scopes.keys.Nodup
  noMeta : metaName ∉ theme.scopes.keys
  noStyles : Theme.stylesKey ∉ theme.scopes.keys
  trees : ∀ scope ∈ theme.scopes, scope.2.WellNamed
  styles : theme.styles.keys.Nodup

namespace Analysis

variable {table : BlockTable} {body : Body} {flaws : List Flaw}

/-- No note is taken twice. -/
theorem nodup_keys_notes (h : Regular table body) :
    (ofBody table body flaws).notes.keys.Nodup := by
  rw [notes, filterMap_log h.palette _ fun _ _ => rfl, Entries.keys, List.Nodup,
    List.pairwise_map, List.pairwise_filterMap]
  refine (findings_pairwise h).imp ?_
  rintro f g hapart ⟨key, text⟩ hf ⟨key', text'⟩ hg rfl
  have hsymbol : ∀ {v : Verdict} {text : String}, v.note? = some (key, text) →
      ∃ name, v.symbol? = some ([metaName, key], name) := by
    intro v text hv
    cases v <;> cases hv
    exact ⟨_, rfl⟩
  obtain ⟨name, hname⟩ := hsymbol hf
  obtain ⟨other, hother⟩ := hsymbol hg
  exact hapart _ name other hname hother

theorem mem_scopes {scope : String × Node} (h : scope ∈ (ofBody table body flaws).scopes) :
    ∃ c ∈ chapters table body, scope = c.scope := by
  rw [scopes_ofBody] at h
  rcases Entries.mem_putAll h with h | h
  · cases h
  · obtain ⟨c, hc, rfl⟩ := List.mem_map.1 h
    exact ⟨c, hc, rfl⟩

theorem mem_keys_scopes {name : String} (h : name ∈ (ofBody table body flaws).scopes.keys) :
    name ∈ table.map BlockRule.name := by
  obtain ⟨scope, hscope, rfl⟩ := List.mem_map.1 h
  obtain ⟨c, hc, rfl⟩ := mem_scopes hscope
  exact List.mem_map.2 ⟨c.rule, rule_mem_of_mem_chapters hc, rfl⟩

theorem nodup_keys_walkBlocks {stage : Stage} (h : stage.styles.keys.Nodup) :
    (walkBlocks body stage table).styles.keys.Nodup := by
  induction table generalizing stage with
  | nil => exact h
  | cons rule rules ih =>
    rw [walkBlocks]
    cases body.block? rule.name with
    | none => exact ih h
    | some block =>
      refine ih ?_
      rw [(Chapter.mk rule block stage).styles_enter]
      split
      · exact Entries.nodup_keys_putAll _ h
      · exact h

theorem nodup_keys_styles : (ofBody table body flaws).styles.keys.Nodup := by
  by_cases h : HasPalette table body
  · rw [ofBody_of_hasPalette h]
    exact nodup_keys_walkBlocks List.nodup_nil
  · rw [ofBody_of_not_hasPalette h]
    exact List.nodup_nil

/-- A document without a palette is in error. -/
theorem hasErrors_of_not_hasPalette (h : ¬ HasPalette table body) :
    (ofBody table body flaws).hasErrors = true := by
  rw [ofBody_of_not_hasPalette h]
  refine List.any_eq_true.2 ⟨⟨.missingPalette, Span.point 0⟩, ?_, rfl⟩
  exact List.mem_append_right _ (List.mem_singleton_self _)

end Analysis

/-- A theme is settled only by a document that has a palette. -/
theorem Theme.regular_of_ofAnalysis {strictAnsi : Bool} {source : String} {theme : Theme}
    (h : Theme.ofAnalysis strictAnsi (Analysis.ofSource .standard source) = .ok theme) :
    Analysis.Regular .standard (Body.read source).items where
  names := BlockTable.proper_standard.names
  noMeta := by decide
  palette := by
    by_contra hno
    have herrors : (Analysis.ofSource .standard source).hasErrors = true :=
      Analysis.hasErrors_of_not_hasPalette hno
    rw [Theme.ofAnalysis_of_hasErrors herrors] at h
    cases h

/-- **The names of a theme that is settled can be told apart.** -/
theorem Theme.wellNamed_of_ofAnalysis {strictAnsi : Bool} {source : String} {theme : Theme}
    (h : Theme.ofAnalysis strictAnsi (Analysis.ofSource .standard source) = .ok theme) :
    theme.WellNamed := by
  have hregular := Theme.regular_of_ofAnalysis h
  obtain rfl := Theme.of_ofAnalysis h
  constructor
  case notes => exact Analysis.nodup_keys_notes hregular
  case scopes =>
    show ((Analysis.ofBody _ _ _).scopes.keys).Nodup
    rw [Analysis.scopes_ofBody]
    exact Entries.nodup_keys_putAll _ List.nodup_nil
  case noMeta => exact fun hmem => absurd (Analysis.mem_keys_scopes hmem) (by decide)
  case noStyles => exact fun hmem => absurd (Analysis.mem_keys_scopes hmem) (by decide)
  case trees =>
    intro scope hscope
    obtain ⟨c, hc, rfl⟩ := Analysis.mem_scopes hscope
    exact Chapter.wellNamed_tree
      (BlockTable.proper_standard.reserves c.rule (Analysis.rule_mem_of_mem_chapters hc))
  case styles => exact Analysis.nodup_keys_styles

end ColorTheme

import ColorTheme.Proofs.Account.Listing
import ColorTheme.Proofs.Theme.WellNamed

/-!
# The styles of an analysis

Every colored group of a styled block has its style.

* `Analysis.styles_eq` : with one styled block in the table, the styles are those of its chapter.
* `Analysis.flag_log` : the log of a chapter has of each flag the value that it was set to.
* `Analysis.style_of_colored` : so the style of a group has its color and its flags.
-/

set_option autoImplicit false

namespace ColorTheme

/-- The name of a flag tells which flag it is. -/
theorem StyleFlag.name_of_ofName? {name : String} {flag : StyleFlag}
    (h : StyleFlag.ofName? name = some flag) : flag.name = name := by
  have hname := List.find?_some h
  simpa using hname

/-- A style flag has the name that sets it. -/
theorem BlockRule.name_of_flag? {rule : BlockRule} {enclosing : Path} {name : String}
    {flag : StyleFlag} (h : rule.flag? enclosing name = some flag) :
    flag.name = name ∧ rule.styled = true ∧ 1 < enclosing.length := by
  unfold BlockRule.flag? at h
  split at h
  · rename_i hstyled
    exact ⟨StyleFlag.name_of_ofName? h, hstyled⟩
  · cases h

/-- The styles with their colors are the listing of the tree. -/
theorem colors_stylesOf (log : Log) (block : String) (tree : Node) :
    (stylesOf log block tree).map (fun entry => (entry.1, entry.2.color)) = tree.flatten := by
  rw [stylesOf, Node.flatten, List.map_filterMap]
  refine List.filterMap_congr fun entry _ => ?_
  dsimp only
  split <;> rfl

namespace Chapter

/-- What a chapter adds to the styles. -/
def styles (c : Chapter) : Entries String Style :=
  if c.rule.styled then stylesOf c.log c.rule.name c.tree else []

/-- The style of a group in the log of a chapter. -/
def styleAt (c : Chapter) (path : List String) (color : Color) : Style :=
  let flag := c.log.flag (c.rule.name :: path)
  ⟨color, flag .bold, flag .italic, flag .underline⟩

theorem has_styleAt (c : Chapter) (path : List String) (color : Color) (flag : StyleFlag) :
    (c.styleAt path color).has flag = c.log.flag (c.rule.name :: path) flag := by
  cases flag <;> rfl

/-- Styles have the keys under which the colors of the tree are listed. -/
theorem keys_stylesOf (c : Chapter) :
    (stylesOf c.log c.rule.name c.tree).map Prod.fst = c.tree.flatten.map Prod.fst := by
  rw [← colors_stylesOf c.log c.rule.name c.tree, List.map_map]
  rfl

/-- A node of the tree that has a color is listed. -/
theorem mem_colorsFrom (c : Chapter) {path : List String} {color : Color} :
    (path, color) ∈ c.tree.colorsFrom [] ↔ c.tree.colorAt path = some color := by
  rw [c.tree_eq, (Node.perm_colorsFrom_painted c.tour.marks_nodup).mem_iff,
    Node.colorAt_painted c.tour.marks_nodup]

theorem styles_enter_eq (c : Chapter) :
    (c.stage.enter c.rule c.block).styles = c.stage.styles.putAll c.styles := by
  rw [c.styles_enter, styles]
  split <;> rfl

end Chapter

/-- The walk writes down the styles of its chapters. -/
theorem styles_walkBlocks (body : Body) (stage : Stage) (table : BlockTable) :
    (walkBlocks body stage table).styles =
      stage.styles.putAll ((chaptersFrom body stage table).flatMap Chapter.styles) := by
  induction table generalizing stage with
  | nil => rfl
  | cons rule rules ih =>
    rw [walkBlocks, chaptersFrom]
    cases body.block? rule.name with
    | none => exact ih stage
    | some block =>
      dsimp only
      rw [ih, (Chapter.mk rule block stage).styles_enter_eq, List.flatMap_cons]
      exact (List.foldl_append).symm

namespace Analysis

variable {table : BlockTable} {body : Body} {flaws : List Flaw} {source : String} {f : Finding}
  {c : Chapter} {v : Visit}

theorem styles_ofBody (table : BlockTable) (body : Body) (flaws : List Flaw) :
    (ofBody table body flaws).styles =
      Entries.putAll [] ((chapters table body).flatMap Chapter.styles) := by
  by_cases h : HasPalette table body
  · rw [ofBody_of_hasPalette h, chapters, if_pos h]
    exact styles_walkBlocks body ⟨openingLog table body, [], []⟩ table
  · rw [ofBody_of_not_hasPalette h, chapters, if_neg h]
    rfl

/-- A table with one styled block gives one styled chapter. -/
theorem filter_styled_chapters (hone : (table.filter BlockRule.styled).length ≤ 1)
    (hc : c ∈ chapters table body) (hstyled : c.rule.styled = true) :
    (chapters table body).filter (·.rule.styled) = [c] := by
  have hrules : ((chapters table body).filter (·.rule.styled)).length ≤ 1 := by
    have hsub := (rule_chapters_sublist table body).filter BlockRule.styled
    rw [List.filter_map] at hsub
    have hlength := hsub.length_le
    rw [List.length_map] at hlength
    exact hlength.trans hone
  have hmem : c ∈ (chapters table body).filter (·.rule.styled) := List.mem_filter.2 ⟨hc, hstyled⟩
  generalize (chapters table body).filter (·.rule.styled) = styled at hrules hmem
  match styled, hrules, hmem with
  | [d], _, hmem => rw [List.mem_singleton.1 hmem]
  | _ :: _ :: _, hrules, _ => simp at hrules

/-- No two colors of a block are listed under the same path. -/
theorem nodup_listed (hnames : (table.map BlockRule.name).Nodup)
    (hmeta : metaName ∉ table.map BlockRule.name)
    (hc : c ∈ chapters table (Body.read source).items) : (c.tree.flatten.map Prod.fst).Nodup := by
  -- the listing of a block is part of the listing of all blocks, which shows no path twice
  have hall := ((perm_listings hnames hmeta source []).map Prod.fst).nodup_iff.2
    (nodup_shown hnames hmeta source)
  rw [scopes_eq hnames, List.flatMap_map, List.map_flatMap] at hall
  have hpart := (List.nodup_flatMap.1 hall).1 c hc
  have hshown : ((c.tree.flatten.map Prod.fst).map (c.rule.name ++ "." ++ ·)).Nodup := by
    rw [List.map_map] at hpart ⊢
    exact hpart
  exact hshown.of_map _

/-- **With one styled block in the table, the styles are those of its chapter.** -/
theorem styles_eq (hnames : (table.map BlockRule.name).Nodup)
    (hmeta : metaName ∉ table.map BlockRule.name)
    (hone : (table.filter BlockRule.styled).length ≤ 1)
    (hc : c ∈ chapters table (Body.read source).items) (hstyled : c.rule.styled = true) :
    (ofBody table (Body.read source).items flaws).styles =
      stylesOf c.log c.rule.name c.tree := by
  have hflat : ∀ chapters : List Chapter, chapters.flatMap Chapter.styles =
      (chapters.filter (·.rule.styled)).flatMap fun c => stylesOf c.log c.rule.name c.tree := by
    intro chapters
    induction chapters with
    | nil => rfl
    | cons d chapters ih =>
      rw [List.flatMap_cons, ih, List.filter_cons, Chapter.styles]
      split <;> rfl
  rw [styles_ofBody, hflat, filter_styled_chapters hone hc hstyled, List.flatMap_singleton]
  refine Entries.putAll_nil_eq_self ?_
  rw [c.keys_stylesOf]
  exact nodup_listed hnames hmeta hc

/-! ## Flags -/

/-- A flag is set by an accepted attribute of its name. -/
theorem accepted_of_flag? (hf : f ∈ findings table body) {group : Path} {flag : StyleFlag}
    {value : Bool} (h : f.verdict.flag? = some (group, flag, value)) :
    f.Accepted ∧ f.path = group ++ [flag.name] := by
  rcases List.mem_append.1 hf with hopening | hf'
  · rcases noted_or_rejected hopening with ⟨_, _, -, -, -, hverdict⟩ | ⟨_, _, hverdict, -⟩ <;>
      rw [hverdict] at h <;> cases h
  · obtain ⟨c, hc, hchapter⟩ := List.mem_flatMap.1 hf'
    rcases List.mem_cons.1 hchapter with rfl | hvisit
    · cases h
    · obtain ⟨v, hv, rfl⟩ := List.mem_map.1 hvisit
      obtain ⟨p, hp⟩ := c.tour.exists_judged hv
      have hflag : v.verdict.flag? = some (group, flag, value) := h
      cases hverdict : v.verdict <;> rw [hverdict] at hflag <;> cases hflag
      rename_i path name
      rw [hverdict] at hp
      obtain ⟨a, hitem, hpath, -, hname, -⟩ := hp.of_flagged
      have hsymbol : v.finding.verdict.symbol? = some (path, name) := by
        show v.verdict.symbol? = _
        rw [hverdict]
        rfl
      obtain ⟨haccepted, heq, -⟩ := accepted_of_symbol? hf hsymbol
      refine ⟨haccepted, ?_⟩
      rw [← heq, hpath, List.dropLast_concat, (BlockRule.name_of_flag? hname).1]

/-- **The log of a chapter has of each flag the value that it was set to.** -/
theorem flag_log (h : Regular table body) (hc : c ∈ chapters table body) (hv : v ∈ c.visits)
    {group : Path} {flag : StyleFlag} {value : Bool}
    (hset : v.verdict.flag? = some (group, flag, value)) : c.log.flag group flag = value := by
  cases value with
  | true =>
    have hmem : v.verdict ∈ c.log := by
      rw [Chapter.log, Progress.log_after]
      exact List.mem_append_right _ (List.mem_map_of_mem hv)
    exact List.any_eq_true.2 ⟨v.verdict, hmem, by simp [hset]⟩
  | false =>
    by_contra hne
    obtain ⟨w, hw, hother⟩ := List.any_eq_true.1 (eq_true_of_ne_false hne)
    have hmem : (group, flag, true) ∈ (ofBody table body []).log.filterMap Verdict.flag? :=
      List.mem_filterMap.2 ⟨w, log_subset_of_mem_chapters hc w hw, by simpa using hother⟩
    obtain ⟨g, hg, -, hother⟩ := exists_accepted_of_mem_log h.palette Verdict.flag?
      (fun _ => rfl) (fun _ _ => rfl) hmem
    -- both define the path of the flag, so they are the same finding
    have hf := finding_mem_of_visit hc hv
    obtain ⟨hfa, hfpath⟩ := accepted_of_flag? hf hset
    obtain ⟨hga, hgpath⟩ := accepted_of_flag? hg hother
    unfold Finding.Accepted at hfa hga
    rw [hfpath] at hfa
    rw [hgpath] at hga
    obtain rfl := eq_of_symbol? h hf hg hfa hga
    rw [show v.finding.verdict.flag? = _ from hset] at hother
    cases hother

/-- **A group with a color has a style, with this color and with each flag that is set on it.** -/
theorem style_of_colored (hproper : table.Proper) (hmeta : metaName ∉ table.map BlockRule.name)
    (hone : (table.filter BlockRule.styled).length ≤ 1)
    (hc : c ∈ chapters table (Body.read source).items) (hv : v ∈ c.visits)
    (hstyled : c.rule.styled = true) {group : List String} (hgroup : group ≠ [])
    (hnames : ∀ name ∈ group, IsSegment name) {flag : StyleFlag} {value : Bool}
    (hset : v.verdict.flag? = some (c.rule.name :: group, flag, value)) {color : Color}
    (hcolor : c.tree.colorAt group = some color) :
    ∃ style, (ofBody table (Body.read source).items flaws).styles.get? (Node.listed group) =
      some style ∧ style.color = color ∧ style.has flag = value := by
  have hregular : Regular table (Body.read source).items :=
    ⟨hproper.names, hmeta, hasPalette_of_mem_chapters hc⟩
  have hshown : ¬ (Node.listed group).isEmpty = true := fun hempty =>
    hgroup ((Node.isEmpty_listed hnames).1 hempty)
  refine ⟨c.styleAt group color, ?_, rfl, ?_⟩
  · rw [Entries.get?_eq_some_iff nodup_keys_styles, styles_eq hproper.names hmeta hone hc hstyled]
    refine List.mem_filterMap.2 ⟨(group, color), c.mem_colorsFrom.2 hcolor, ?_⟩
    dsimp only
    rw [if_neg hshown]
    rfl
  · rw [c.has_styleAt, flag_log hregular hc hv hset]

end Analysis

end ColorTheme

import ColorTheme.Proofs.Account.Spans
import ColorTheme.Proofs.Node.Listing
import ColorTheme.Theme.Target

/-!
# Listings of all colors

* `Entries.putAll_nil_eq_self` : entries with different keys are put down as they are.
* `Chapter.perm_flatten` : the listing of a tree shows the colors of its block, each under the
  path of its node, but for the own color of the block.
* `Analysis.listsColors` : so do the listing of an analysis and the lines of its theme, for every
  source.
* `Analysis.ownColor_unlisted` : a block with an own color.
-/

set_option autoImplicit false

namespace ColorTheme

/-! ## Names -/

/-- An identifier can stand between dots. -/
theorem isSegment_of_word {name : String} (h : Lexeme .ident name.toList) : IsSegment name := by
  have hword : name.toList ≠ [] ∧ '.' ∉ name.toList := by
    generalize name.toList = cs at h
    cases h with
    | ident first others =>
      refine ⟨List.cons_ne_nil _ _, fun hdot => ?_⟩
      rcases List.mem_cons.1 hdot with rfl | hdot
      · revert first
        decide
      · have hrest := others '.' hdot
        revert hrest
        decide
  exact ⟨fun hempty => hword.1 (by rw [hempty]; rfl), hword.2⟩

/-- The names on the way to an item of a source, and its own, are identifiers. -/
theorem Within.isWord {source : String} {enclosing : Path} {item : Item}
    (h : Within (Body.read source).items enclosing item) :
    ∀ name ∈ enclosing ++ [item.name.name], Lexeme .ident name.toList := by
  have hname : ∀ item ∈ spreadAll (Body.read source).items,
      Lexeme .ident item.name.name.toList := by
    intro item hitem
    have hplaced := Body.placed_of_mem hitem
    cases hplaced with
    | assignment fits named => exact named.word
    | block fits named => exact named.word
  induction h with
  | top mem =>
    intro name hmem
    rw [List.mem_singleton.1 hmem]
    exact hname _ (Within.top mem).mem_spreadAll
  | inside outer mem ih =>
    refine List.forall_mem_append.2 ⟨ih, fun name hmem => ?_⟩
    rw [List.mem_singleton.1 hmem]
    exact hname _ (outer.inside mem).mem_spreadAll

theorem Within.isSegment {source : String} {enclosing : Path} {item : Item}
    (h : Within (Body.read source).items enclosing item) :
    ∀ name ∈ enclosing ++ [item.name.name], IsSegment name :=
  fun name hname => isSegment_of_word (h.isWord name hname)

/-! ## Entries -/

namespace Entries

variable {κ α : Type} [DecidableEq κ] {entries more : Entries κ α} {key : κ}

theorem alter_of_not_mem (h : key ∉ entries.map Prod.fst) (f : Option α → α) :
    alter key f entries = entries ++ [(key, f none)] := by
  induction entries with
  | nil => rfl
  | cons first rest ih =>
    obtain ⟨k, v⟩ := first
    rw [List.map_cons, List.mem_cons, not_or] at h
    rw [alter, if_neg (Ne.symm h.1), ih h.2]
    rfl

theorem putAll_eq_append (h : ((entries ++ more).map Prod.fst).Nodup) :
    putAll entries more = entries ++ more := by
  induction more generalizing entries with
  | nil => exact (List.append_nil entries).symm
  | cons first more ih =>
    obtain ⟨key, value⟩ := first
    have hfresh : key ∉ entries.map Prod.fst := by
      rw [List.map_append, List.map_cons, List.nodup_append] at h
      exact fun hmem => h.2.2 key hmem key List.mem_cons_self rfl
    have hput : put key value entries = entries ++ [(key, value)] := alter_of_not_mem hfresh _
    show putAll (put key value entries) more = _
    rw [hput, ih (by rwa [List.append_assoc]), List.append_assoc]
    rfl

/-- Entries with different keys are put down as they are. -/
theorem putAll_nil_eq_self (h : (more.map Prod.fst).Nodup) : putAll [] more = more :=
  putAll_eq_append h

end Entries

/-! ## The colors of a block -/

/-- The node that a visit colors, and the color it resolves. -/
def Visit.entry? (v : Visit) : Option (Path × ColorLocation) :=
  v.verdict.location?.map fun location => (v.nodePath, location)

/-- What a listing of all colors shows: each color under the path of its node, unless that is a
whole block. -/
def shownColors (entries : List (Path × ColorLocation)) : List (String × Color) :=
  (entries.filter fun e => 1 < e.1.length).map fun e => (dotted e.1, e.2.color)

theorem Visit.mark?_eq (v : Visit) :
    v.mark? = v.entry?.map fun e => (e.1.tail, e.2.color) := by
  unfold Visit.mark? Visit.entry?
  cases v.verdict <;> rfl

/-- **The listing of a tree shows the colors of its block.** -/
theorem Chapter.perm_flatten (c : Chapter)
    (hnames : ∀ v ∈ c.visits, v.entry?.isSome → ∀ name ∈ v.nodePath, IsSegment name) :
    (c.tree.flatten.map fun (path, color) => (c.rule.name ++ "." ++ path, color)).Perm
      (shownColors (c.visits.filterMap Visit.entry?)) := by
  have hmarks : c.visits.filterMap Visit.mark? =
      (c.visits.filterMap Visit.entry?).map fun e => (e.1.tail, e.2.color) := by
    rw [List.map_filterMap]
    exact List.filterMap_congr fun v _ => v.mark?_eq
  have hentry : ∀ e ∈ c.visits.filterMap Visit.entry?,
      e.1 = c.rule.name :: e.1.tail ∧ ∀ name ∈ e.1, IsSegment name := by
    intro e he
    obtain ⟨v, hv, hsome⟩ := List.mem_filterMap.1 he
    obtain ⟨location, -, rfl⟩ := Option.map_eq_some_iff.1 hsome
    exact ⟨c.tour.nodePath_eq hv, hnames v hv (by rw [hsome]; rfl)⟩
  have hsegments : ∀ mark ∈ c.visits.filterMap Visit.mark?, ∀ name ∈ mark.1, IsSegment name := by
    rw [hmarks]
    intro mark hmark name hname
    obtain ⟨e, he, rfl⟩ := List.mem_map.1 hmark
    exact (hentry e he).2 name (List.mem_of_mem_tail hname)
  have hlisted := (Node.flatten_perm c.tour.marks_nodup hsegments).map
    fun (entry : String × Color) => (c.rule.name ++ "." ++ entry.1, entry.2)
  rw [← c.tree_eq, hmarks, List.filter_map, List.map_map, List.map_map] at hlisted
  refine hlisted.trans (.of_eq ?_)
  have hfilter : (c.visits.filterMap Visit.entry?).filter
      ((fun mark : List String × Color => decide (mark.1 ≠ [])) ∘ fun e => (e.1.tail, e.2.color)) =
      (c.visits.filterMap Visit.entry?).filter fun e => 1 < e.1.length := by
    refine List.filter_congr fun e he => decide_eq_decide.2 ?_
    have hlength : e.1.length = e.1.tail.length + 1 := by
      rw [(hentry e he).1]
      rfl
    show e.1.tail ≠ [] ↔ 1 < e.1.length
    rw [hlength, ne_eq, ← List.length_eq_zero_iff]
    omega
  rw [hfilter]
  refine List.map_congr_left fun e he => ?_
  obtain ⟨he, hlong⟩ := List.mem_filter.1 he
  have hlong : 1 < e.1.length := by simpa using hlong
  have hhead := (hentry e he).1
  obtain ⟨path, location⟩ := e
  dsimp only [Function.comp] at *
  cases htail : path.tail with
  | nil =>
    rw [hhead, htail] at hlong
    exact absurd hlong (Nat.lt_irrefl 1)
  | cons second rest => rw [hhead, htail, dotted_cons_cons]

/-! ## The colors of an analysis -/

namespace Analysis

variable {table : BlockTable} {body : Body} {flaws : List Flaw} {source : String}

theorem map_fst_entries (visits : List Visit) :
    (visits.filterMap Visit.entry?).map Prod.fst =
      visits.filterMap fun v => v.verdict.location?.map fun _ => v.nodePath := by
  rw [List.map_filterMap]
  refine List.filterMap_congr fun v _ => ?_
  rw [Visit.entry?, Option.map_map]
  rfl

theorem map_snd_entries (visits : List Visit) :
    (visits.filterMap Visit.entry?).map Prod.snd =
      visits.filterMap fun v => v.verdict.location? := by
  rw [List.map_filterMap]
  refine List.filterMap_congr fun v _ => ?_
  rw [Visit.entry?, Option.map_map]
  exact Option.map_id'

/-- The names along the path of a node are identifiers of the source. -/
theorem isWord_of_nodePath (hnames : (table.map BlockRule.name).Nodup)
    (hmeta : metaName ∉ table.map BlockRule.name) {v : Visit}
    (hv : v ∈ visits table (Body.read source).items) :
    ∀ name ∈ v.nodePath, Lexeme .ident name.toList := by
  have h : Regular table (Body.read source).items :=
    ⟨hnames, hmeta, hasPalette_of_mem_visits hv⟩
  obtain ⟨c, hc, hvisit⟩ := mem_visits.1 hv
  have hwithin := within_of_mem_findings h (finding_mem_of_visit hc hvisit)
  have hpath : ∀ name ∈ v.path, Lexeme .ident name.toList := hwithin.isWord
  intro name hname
  refine hpath name ?_
  unfold Visit.nodePath at hname
  split at hname
  · exact List.mem_append_left _ hname
  · exact hname

theorem isSegment_of_nodePath (hnames : (table.map BlockRule.name).Nodup)
    (hmeta : metaName ∉ table.map BlockRule.name) {v : Visit}
    (hv : v ∈ visits table (Body.read source).items) :
    ∀ name ∈ v.nodePath, IsSegment name :=
  fun name hname => isSegment_of_word (isWord_of_nodePath hnames hmeta hv name hname)

/-- No two colors are shown under the same path. -/
theorem nodup_shown (hnames : (table.map BlockRule.name).Nodup)
    (hmeta : metaName ∉ table.map BlockRule.name) (source : String) :
    ((shownColors
      ((visits table (Body.read source).items).filterMap Visit.entry?)).map Prod.fst).Nodup := by
  have hpaths := nodup_nodes hnames (Body.read source).items
  rw [← map_fst_entries] at hpaths
  have hfiltered := hpaths.sublist
    ((List.filter_sublist (p := fun e : Path × ColorLocation => 1 < e.1.length)).map Prod.fst)
  have hkeys : (shownColors
      ((visits table (Body.read source).items).filterMap Visit.entry?)).map Prod.fst =
      ((((visits table (Body.read source).items).filterMap Visit.entry?).filter
        fun e => 1 < e.1.length).map Prod.fst).map dotted := by
    rw [shownColors, List.map_map, List.map_map]
    rfl
  rw [hkeys]
  have hsegments : ∀ path ∈ (((visits table (Body.read source).items).filterMap
      Visit.entry?).filter fun e => 1 < e.1.length).map Prod.fst,
      path ≠ [] ∧ ∀ name ∈ path, IsSegment name := by
    intro path hpath
    obtain ⟨e, he, rfl⟩ := List.mem_map.1 hpath
    obtain ⟨he, hlong⟩ := List.mem_filter.1 he
    obtain ⟨v, hv, hsome⟩ := List.mem_filterMap.1 he
    obtain ⟨location, -, rfl⟩ := Option.map_eq_some_iff.1 hsome
    refine ⟨fun hnil => ?_, isSegment_of_nodePath hnames hmeta hv⟩
    rw [hnil] at hlong
    cases hlong
  refine hfiltered.map_on fun p hp q hq heq => ?_
  obtain ⟨hpne, hpnames⟩ := hsegments p hp
  obtain ⟨hqne, hqnames⟩ := hsegments q hq
  exact dotted_inj hpnames hqnames hpne hqne heq

/-- The scopes are those of the chapters, in their order. -/
theorem scopes_eq (hnames : (table.map BlockRule.name).Nodup) :
    (ofBody table body flaws).scopes = (chapters table body).map Chapter.scope := by
  rw [scopes_ofBody]
  refine Entries.putAll_nil_eq_self ?_
  rw [List.map_map]
  exact nodup_chapterNames hnames _

/-- The listing of all trees shows each color once, under the path of its node, but for the own
colors of whole blocks. -/
theorem perm_listings (hnames : (table.map BlockRule.name).Nodup)
    (hmeta : metaName ∉ table.map BlockRule.name) (source : String) (flaws : List Flaw) :
    ((ofBody table (Body.read source).items flaws).scopes.flatMap fun (block, tree) =>
      tree.flatten.map fun (path, color) => (block ++ "." ++ path, color)).Perm
      (shownColors ((visits table (Body.read source).items).filterMap Visit.entry?)) := by
  rw [scopes_eq hnames, List.flatMap_map, visits, shownColors, List.filterMap_flatMap,
    List.filter_flatMap, List.map_flatMap]
  refine List.Perm.flatMap_left _ fun c hc => c.perm_flatten fun v hv _ => ?_
  exact isSegment_of_nodePath hnames hmeta (mem_visits.2 ⟨c, hc, hv⟩)

/-- The listing of an analysis is that of its trees. -/
theorem flatColors_eq (hnames : (table.map BlockRule.name).Nodup)
    (hmeta : metaName ∉ table.map BlockRule.name) (source : String) (flaws : List Flaw) :
    (ofBody table (Body.read source).items flaws).flatColors =
      (ofBody table (Body.read source).items flaws).scopes.flatMap fun (block, tree) =>
        tree.flatten.map fun (path, color) => (block ++ "." ++ path, color) := by
  have hperm := (perm_listings hnames hmeta source flaws).map Prod.fst
  exact Entries.putAll_nil_eq_self (hperm.nodup_iff.2 (nodup_shown hnames hmeta source))

/-- The line shows the path and the color of the entry, and the flags of a style behind it. -/
def IsLineOf (entry : String × Color) (line : String) : Prop :=
  ∃ flags : List StyleFlag, line =
    entry.1 ++ " = " ++ entry.2.hex ++ String.join (flags.map fun flag => " " ++ flag.name)

/-- What the listing of an analysis shows of its colors. -/
structure ListsColors (a : Analysis) (source : String) : Prop where
  /-- Each color has a node; it is listed under the path of this node, unless the node is a whole
  block, and nothing else is listed. -/
  entries : ∃ nodes : List Path, nodes.Nodup ∧
    List.Forall₂ (a.Locates (Body.read source).items) a.colors nodes ∧
    a.flatColors.Perm (shownColors (nodes.zip a.colors))
  /-- No path is listed twice. -/
  once : (a.flatColors.map Prod.fst).Nodup
  /-- The lines of a theme are its notes and what is listed, in this order, with the flags of each
  color. -/
  lines : ∀ strict theme, Theme.ofAnalysis strict a = .ok theme →
    ∃ lines, theme.listing =
        theme.notes.map (fun (key, value) => Theme.noteLine key value) ++ lines ∧
      List.Forall₂ IsLineOf a.flatColors lines

/-- The lines of a theme show what the listing of its trees shows. -/
theorem forall₂_listing (theme : Theme) :
    List.Forall₂ IsLineOf
      (theme.scopes.flatMap fun (block, tree) =>
        tree.flatten.map fun (path, color) => (block ++ "." ++ path, color))
      (theme.scopes.flatMap fun (block, tree) =>
        tree.flatten.map fun (path, color) =>
          Theme.colorLine block path color
            (((theme.styleOf? block path).map Theme.flagsOf).getD [])) := by
  have hblock (entries : List (String × Color)) (block : String) : List.Forall₂ IsLineOf
      (entries.map fun (path, color) => (block ++ "." ++ path, color))
      (entries.map fun (path, color) => Theme.colorLine block path color
        (((theme.styleOf? block path).map Theme.flagsOf).getD [])) := by
    rw [List.forall₂_map_left_iff, List.forall₂_map_right_iff, List.forall₂_same]
    exact fun entry _ => ⟨_, rfl⟩
  generalize theme.scopes = scopes
  induction scopes with
  | nil => exact .nil
  | cons scope scopes ih => exact List.rel_append (hblock scope.2.flatten scope.1) ih

/-- **All colors are listed but the own colors of whole blocks**, for every source under the
standard table. -/
theorem listsColors (source : String) : (ofSource .standard source).ListsColors source := by
  have hnames := BlockTable.proper_standard.names
  have hmeta : metaName ∉ BlockTable.standard.map BlockRule.name := by decide
  have hperm := perm_listings hnames hmeta source
    ((Body.read source).flaws.filter (·.kind != .nameAfterDot))
  have hflat := flatColors_eq hnames hmeta source
    ((Body.read source).flaws.filter (·.kind != .nameAfterDot))
  rw [← hflat] at hperm
  constructor
  case entries =>
    refine ⟨_, nodup_nodes hnames (Body.read source).items, ?_, ?_⟩
    · show List.Forall₂ _ (ofBody .standard (Body.read source).items _).colors _
      rw [colors_eq]
      exact forall₂_filterMap_map fun v hv location hlocation =>
        locates_of_location? ⟨hnames, hmeta, hasPalette_of_mem_visits hv⟩ BlockTable.proper_standard
          hv hlocation
    · have hzip : ((visits .standard (Body.read source).items).filterMap
          fun v => v.verdict.location?.map fun _ => v.nodePath).zip
          (ofSource .standard source).colors =
          (visits .standard (Body.read source).items).filterMap Visit.entry? := by
        show List.zip _ (ofBody .standard (Body.read source).items _).colors = _
        rw [colors_eq, ← map_fst_entries, ← map_snd_entries, List.zip_map']
        exact List.map_id' _
      rw [hzip]
      exact hperm
  case once => exact (hperm.map Prod.fst).nodup_iff.2 (nodup_shown hnames hmeta source)
  case lines =>
    intro strict theme htheme
    obtain rfl := Theme.of_ofAnalysis htheme
    refine ⟨_, rfl, ?_⟩
    show List.Forall₂ _ (ofBody .standard (Body.read source).items _).flatColors _
    rw [hflat]
    exact forall₂_listing ⟨(ofSource .standard source).notes, (ofSource .standard source).scopes,
      (ofSource .standard source).styles⟩

/-- A palette with a color of its own. -/
def ownedSource : String := "palette \x7b\n  color = #112233\n\x7d\n"

theorem ownColor_unlisted :
    (ofSource .standard ownedSource).colors = [⟨⟨20, 27⟩, ⟨0x11, 0x22, 0x33⟩, false⟩] ∧
      (ofSource .standard ownedSource).errors = [] ∧
      (ofSource .standard ownedSource).flatColors = [] := by
  decide +kernel

end Analysis

end ColorTheme

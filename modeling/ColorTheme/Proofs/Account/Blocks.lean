import ColorTheme.Proofs.Account.Finding
import ColorTheme.Proofs.Walk.Order
import Mathlib.Data.List.Perm.Basic

/-!
# Every block of a document is barred or entered

* `perm_barred_entered` : the blocks of a document are the barred ones and the entered ones.
* `Analysis.perm_blocks` : the entered ones are the `meta` block and those of the chapters.
* `Analysis.nodup_findings` : so no item of a source is found twice.
-/

set_option autoImplicit false

namespace ColorTheme

/-- The blocks of the document that are entered: the first of each known name. -/
def enteredBlocks (table : BlockTable) (seen : List String) : List Block → List Block
  | [] => []
  | block :: blocks =>
    let name := block.kind.name
    if table.knows name = false then enteredBlocks table seen blocks
    else if name ∈ seen then enteredBlocks table seen blocks
    else block :: enteredBlocks table (name :: seen) blocks

section

variable {table : BlockTable} {seen : List String} {blocks : List Block} {b : Block}

/-- **A block is barred or entered.** -/
theorem perm_barred_entered (table : BlockTable) (seen : List String) (blocks : List Block) :
    blocks.Perm ((barredBlocks table seen blocks).map Prod.fst ++
      enteredBlocks table seen blocks) := by
  induction blocks generalizing seen with
  | nil => exact .nil
  | cons block blocks ih =>
    rw [barredBlocks, enteredBlocks]
    split
    · exact (ih seen).cons block
    · split
      · exact (ih seen).cons block
      · exact ((ih _).cons block).trans List.perm_middle.symm

/-- The entered blocks are the first of each known name. -/
theorem mem_enteredBlocks : b ∈ enteredBlocks table seen blocks ↔
    table.knows b.kind.name = true ∧ b.kind.name ∉ seen ∧
      blocks.find? (·.kind.name == b.kind.name) = some b := by
  induction blocks generalizing seen with
  | nil => simp [enteredBlocks]
  | cons block blocks ih =>
    rw [enteredBlocks, List.find?_cons]
    by_cases hname : block.kind.name = b.kind.name
    · rw [hname, beq_self_eq_true]
      dsimp only
      split
      · rename_i hunknown
        rw [ih, hunknown]
        simp
      · rename_i hknown
        split
        · rename_i hseen
          rw [ih]
          simp [hseen]
        · rename_i hfresh
          rw [List.mem_cons, ih]
          simp [hfresh, eq_comm, eq_true_of_ne_false hknown]
    · have hne : (block.kind.name == b.kind.name) = false := beq_eq_false_iff_ne.2 hname
      have hblock : b ≠ block := fun heq => hname (by rw [heq])
      rw [hne]
      dsimp only
      split
      · exact ih
      · split
        · exact ih
        · rw [List.mem_cons, ih]
          simp [hblock, Ne.symm hname]

theorem nodup_enteredBlocks (table : BlockTable) (seen : List String) (blocks : List Block) :
    ((enteredBlocks table seen blocks).map fun b => b.kind.name).Nodup := by
  induction blocks generalizing seen with
  | nil => exact .nil
  | cons block blocks ih =>
    rw [enteredBlocks]
    split
    · exact ih seen
    · split
      · exact ih seen
      · refine List.nodup_cons.2 ⟨?_, ih _⟩
        intro hmem
        obtain ⟨b, hb, hname⟩ := List.mem_map.1 hmem
        have hseen := (mem_enteredBlocks.1 hb).2.1
        exact hseen (by rw [hname]; exact List.mem_cons_self)

end

/-! ## Chapters -/

/-- Every rule has a chapter, if the document has a block for it. -/
theorem exists_mem_chaptersFrom {body : Body} {stage : Stage} {table : BlockTable}
    {rule : BlockRule} {b : Block} (hrule : rule ∈ table)
    (hb : body.block? rule.name = some b) :
    ∃ c ∈ chaptersFrom body stage table, c.rule = rule ∧ c.block = b := by
  obtain ⟨before, behind, rfl⟩ := List.append_of_mem hrule
  exact ⟨_, mem_chaptersFrom_of_split hb, rfl, rfl⟩

theorem BlockTable.knows_iff {table : BlockTable} {name : String} :
    table.knows name = true ↔ name = metaName ∨ ∃ rule ∈ table, rule.name = name := by
  unfold BlockTable.knows BlockTable.rule?
  rw [Bool.or_eq_true, beq_iff_eq, List.find?_isSome]
  simp

namespace Analysis

variable {table : BlockTable} {body : Body}

theorem kind_of_mem_chapters {c : Chapter} (hc : c ∈ chapters table body) :
    c.block.kind.name = c.rule.name := Body.name_of_block? (block?_of_mem_chapters hc)

/-- The `meta` block and the blocks of the chapters are told apart by their names. -/
theorem nodup_blockNames (h : Regular table body) :
    (((body.block? metaName).toList ++ (chapters table body).map Chapter.block).map
      fun b => b.kind.name).Nodup := by
  have hchapters : ((chapters table body).map fun c => c.block.kind.name) =
      (chapters table body).map fun c => c.rule.name :=
    List.map_congr_left fun c hc => kind_of_mem_chapters hc
  rw [List.map_append, List.map_map, List.nodup_append]
  refine ⟨?_, ?_, ?_⟩
  · cases body.block? metaName <;> simp
  · exact hchapters ▸ nodup_chapterNames h.names body
  · rintro name hname other hother rfl
    obtain ⟨b, hb, rfl⟩ := List.mem_map.1 hname
    obtain ⟨c, hc, heq⟩ := List.mem_map.1 hother
    have hb := Body.name_of_block? (Option.mem_toList.1 hb)
    refine h.noMeta (List.mem_map.2 ⟨c.rule, rule_mem_of_mem_chapters hc, ?_⟩)
    rw [← kind_of_mem_chapters hc, ← hb]
    exact heq

/-- **The entered blocks are the `meta` block and those of the chapters.** -/
theorem perm_enteredBlocks (h : Regular table body) :
    (enteredBlocks table [] body.blocks).Perm
      ((body.block? metaName).toList ++ (chapters table body).map Chapter.block) := by
  refine (List.perm_ext_iff_of_nodup (nodup_enteredBlocks table [] body.blocks).of_map
    (nodup_blockNames h).of_map).2 fun b => ?_
  rw [mem_enteredBlocks, List.mem_append, Option.mem_toList, List.mem_map, BlockTable.knows_iff]
  constructor
  · rintro ⟨hname | ⟨rule, hrule, hname⟩, -, hb⟩
    · rw [hname] at hb
      exact .inl hb
    · rw [← hname] at hb
      have hc : ∃ c ∈ chapters table body, c.rule = rule ∧ c.block = b := by
        unfold chapters
        rw [if_pos h.palette]
        exact exists_mem_chaptersFrom hrule hb
      obtain ⟨c, hc, -, hblock⟩ := hc
      exact .inr ⟨c, hc, hblock⟩
  · rintro (hb | ⟨c, hc, rfl⟩)
    · have hname := Body.name_of_block? hb
      refine ⟨.inl hname, by simp, ?_⟩
      rw [hname]
      exact hb
    · have hname := kind_of_mem_chapters hc
      refine ⟨.inr ⟨c.rule, rule_mem_of_mem_chapters hc, hname.symm⟩, by simp, ?_⟩
      rw [hname]
      exact block?_of_mem_chapters hc

/-- The blocks of the document are those that are not entered, the `meta` block, and those of the
chapters. -/
theorem perm_blocks (h : Regular table body) :
    body.blocks.Perm ((barredBlocks table [] body.blocks).map Prod.fst ++
      ((body.block? metaName).toList ++ (chapters table body).map Chapter.block)) :=
  (perm_barred_entered table [] body.blocks).trans ((perm_enteredBlocks h).append_left _)

end Analysis

/-! ## Items -/

theorem subperm_append {α : Type} {a b c d : List α} (h : a.Subperm c) (h' : b.Subperm d) :
    (a ++ b).Subperm (c ++ d) :=
  ((List.subperm_append_right b).2 h).trans ((List.subperm_append_left c).2 h')

theorem subperm_flatMap {α β : Type} {xs : List α} {f g : α → List β}
    (h : ∀ x ∈ xs, (f x).Subperm (g x)) : (xs.flatMap f).Subperm (xs.flatMap g) := by
  induction xs with
  | nil => exact .refl _
  | cons x xs ih =>
    rw [List.flatMap_cons, List.flatMap_cons]
    exact subperm_append (h x List.mem_cons_self)
      (ih fun y hy => h y (List.mem_cons_of_mem x hy))

/-- The block and all items in it. -/
def Block.spread (b : Block) : List Item := b.item :: spreadAll b.body

/-- The items of a body are its attributes, its blocks, and the items in these. -/
theorem perm_spreadAll (body : Body) :
    (spreadAll body).Perm (body.attributes.map .assignment ++ body.blocks.flatMap Block.spread) := by
  induction body with
  | nil => exact .nil
  | cons item body ih =>
    rw [spreadAll]
    cases item with
    | assignment a => exact ih.cons (.assignment a)
    | block kind inner span =>
      exact (ih.append_left _).trans (List.perm_append_comm_assoc _ _ _)

theorem items_outsideFindings (body : Body) :
    (outsideFindings body).map Finding.item = body.attributes.map .assignment := by
  simp [outsideFindings]

theorem items_noteFindings (log : Log) (attributes : List Attribute) :
    (noteFindings log attributes).map Finding.item = attributes.map .assignment := by
  induction attributes generalizing log with
  | nil => rfl
  | cons a attributes ih => rw [noteFindings, List.map_cons, ih]; rfl

/-- The items found in the `meta` block are among those in it. -/
theorem subperm_metaFindings (log : Log) (block : Block) :
    ((metaFindings log block).map Finding.item).Subperm (spreadAll block.body) := by
  have hinner : (innerFindings block).map Finding.item =
      block.body.blocks.flatMap fun b => [b.item] := by
    rw [innerFindings, List.map_map, List.map_eq_flatMap]
    rfl
  rw [metaFindings, List.map_append, items_noteFindings, hinner]
  refine List.perm_append_comm.subperm.trans
    (.trans ?_ (perm_spreadAll block.body).symm.subperm)
  refine (List.subperm_append_left _).2 (subperm_flatMap fun b _ => ?_)
  exact (List.cons_sublist_cons.2 (List.nil_sublist _)).subperm

/-- The items found in a chapter are the block and some of those in it. -/
theorem Chapter.subperm_findings (c : Chapter) :
    (c.findings.map Finding.item).Subperm c.block.spread := by
  have hvisits := items_visitsOfItems_sublist c.frame [c.rule.name] c.start c.block.body
  have heq : c.findings.map Finding.item = c.block.item :: c.visits.map Visit.item := by
    rw [Chapter.findings, List.map_cons, List.map_map]
    rfl
  rw [heq]
  exact (List.cons_sublist_cons.2 hvisits).subperm

namespace Analysis

variable {table : BlockTable} {body : Body}

theorem subperm_barredFindings (barred : List (Block × Problem)) :
    ((barred.map barredFinding).map Finding.item).Subperm
      ((barred.map Prod.fst).flatMap Block.spread) := by
  have heq : (barred.map barredFinding).map Finding.item =
      (barred.map Prod.fst).flatMap fun b => [b.item] := by
    rw [List.map_map, List.map_eq_flatMap, List.flatMap_map]
    rfl
  rw [heq]
  exact subperm_flatMap fun b _ => (List.cons_sublist_cons.2 (List.nil_sublist _)).subperm

theorem subperm_chapterFindings (chapters : List Chapter) :
    ((chapters.flatMap Chapter.findings).map Finding.item).Subperm
      ((chapters.map Chapter.block).flatMap Block.spread) := by
  rw [List.map_flatMap, List.flatMap_map]
  exact subperm_flatMap fun c _ => c.subperm_findings

/-- **The `meta` block and the items found are some of the items of the document.** -/
theorem subperm_findings (h : Regular table body) :
    ((body.block? metaName).toList.map Block.item ++
      (findings table body).map Finding.item).Subperm (spreadAll body) := by
  have hspread := (perm_spreadAll body).trans
    (((perm_blocks h).flatMap_right Block.spread).append_left _)
  refine .trans ?_ hspread.symm.subperm
  have hbarred := subperm_barredFindings (barredBlocks table [] body.blocks)
  have hchapters := subperm_chapterFindings (chapters table body)
  rw [List.flatMap_append, List.flatMap_append, findings, List.map_append]
  rw [openingFindings, outerFindings, List.map_append, List.map_append, items_outsideFindings]
  cases body.block? metaName with
  | none =>
    rw [Option.toList_none, List.map_nil, List.nil_append, List.flatMap_nil, List.flatMap_nil,
      List.nil_append, List.map_nil, List.append_nil, List.append_assoc]
    exact (List.subperm_append_left _).2 (subperm_append hbarred hchapters)
  | some block =>
    rw [Option.toList_some, List.flatMap_singleton, List.flatMap_singleton]
    show (block.item :: _).Subperm _
    -- the `meta` block moves to the place where the items found in it stand
    have hmove : ∀ a b c d : List Item, (block.item :: (a ++ b ++ c ++ d)).Perm
        (a ++ (b ++ (block.item :: c ++ d))) := by
      intro a b c d
      have := (@List.perm_middle _ block.item (a ++ b) (c ++ d)).symm
      simpa [List.append_assoc] using this
    refine (hmove _ _ _ _).subperm.trans ((List.subperm_append_left _).2
      (subperm_append hbarred (subperm_append ?_ hchapters)))
    exact (List.subperm_cons _).2 (subperm_metaFindings _ block)

/-- Where no two items have their names in the same place, no item is found twice. -/
theorem nodup_findings_of_nodup (h : Regular table body)
    (hnames : ((spreadAll body).map fun i => i.name.span).Nodup) :
    ((body.block? metaName).toList.map (fun b => b.kind.span) ++
      (findings table body).map fun f => f.item.name.span).Nodup := by
  obtain ⟨items, hperm, hsub⟩ := subperm_findings h
  have hnodup := ((hperm.map fun i => i.name.span).nodup_iff).1 (hnames.sublist (hsub.map _))
  rw [List.map_append, List.map_map, List.map_map] at hnodup
  exact hnodup

/-- No two items of a source have their names in the same place. -/
theorem nodup_names (source : String) :
    ((spreadAll (Body.read source).items).map fun i => i.name.span).Nodup :=
  List.pairwise_map.2 ((Body.read_ordered source).imp fun {i j} hlt heq => by
    rw [heq] at hlt
    exact Nat.lt_irrefl _ hlt)

/-- **No item of a source is found twice**, and the `meta` block is not found. -/
theorem nodup_findings {source : String}
    (h : Regular table (Body.read source).items) :
    (((Body.read source).items.block? metaName).toList.map (fun b => b.kind.span) ++
      (findings table (Body.read source).items).map fun f => f.item.name.span).Nodup :=
  nodup_findings_of_nodup h (nodup_names source)

end Analysis

end ColorTheme

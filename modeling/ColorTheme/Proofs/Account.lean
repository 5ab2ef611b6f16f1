import ColorTheme.Proofs.Account.Yield
import ColorTheme.Proofs.Walk.Fixpoint

/-!
# Every item is accounted for

* `Accounted` : each item that an analysis reaches is accepted or rejected, once; it is defined or
  it is an error; and only accepted items yield anything.
* `Analysis.accounted` : so it is for every table with a palette and every source with one.
-/

set_option autoImplicit false

namespace ColorTheme.Analysis

/-- Every item that the analysis of a source reaches is accounted for, exactly once. -/
structure Accounted (table : BlockTable) (source : String) : Prop where
  /-- There is a finding on each item that is reached, the `meta` block excepted, and on no
  other. -/
  reached : ∀ enclosing item,
    Reached (ofSource table source).symbols (Body.read source).items enclosing item ↔
      IsMeta (Body.read source).items enclosing item ∨
        Found table (Body.read source).items enclosing item
  /-- There is only one finding on an item, and none on the `meta` block. -/
  once : (((Body.read source).items.block? metaName).toList.map (fun b => b.kind.span) ++
    (findings table (Body.read source).items).map fun f => f.item.name.span).Nodup
  /-- An item is accepted, without an error, and its path is defined at its name; or it is
  rejected with one error at its name or value, and nothing is defined at its name. -/
  decided : ∀ f ∈ findings table (Body.read source).items,
    (f.Accepted ∧ f.verdict.diagnostic? = none ∧
      (ofSource table source).symbols.get? f.path = some f.item.name.span) ∨
    (f.Rejected ∧ ∀ path, (ofSource table source).symbols.get? path ≠ some f.item.name.span)
  /-- The errors are those of the wording and those of the rejected items, in their order. -/
  errors : (ofSource table source).errors =
    ((Body.read source).flaws.filter (·.kind != .nameAfterDot)).map Diagnostic.ofFlaw ++
      (findings table (Body.read source).items).filterMap fun f => f.verdict.diagnostic?
  /-- Each symbol is defined by an accepted item. -/
  symbols : ∀ path name, (ofSource table source).symbols.get? path = some name →
    ∃ f ∈ findings table (Body.read source).items, f.Accepted ∧ path = f.path ∧
      name = f.item.name.span
  /-- Each color location is that of an accepted attribute. -/
  colors : ∀ location ∈ (ofSource table source).colors,
    ∃ f ∈ findings table (Body.read source).items, f.Accepted ∧
      ∃ a, f.item = .assignment a ∧ location.span = a.value.span ∧
        f.verdict.location? = some location
  /-- Each note is that of an accepted attribute of the `meta` block. -/
  notes : ∀ key text, (key, text) ∈ (ofSource table source).notes →
    ∃ f ∈ findings table (Body.read source).items, f.Accepted ∧ f.path = [metaName, key] ∧
      f.verdict.note? = some (key, text)
  /-- Each tree is that of an accepted block, its colors are those of accepted attributes, and
  its nodes are on the way to them. -/
  scopes : ∀ name tree, (ofSource table source).scopes.get? name = some tree →
    (∃ f ∈ findings table (Body.read source).items, f.Accepted ∧ f.path = [name]) ∧
    (∀ path c, tree.colorAt path = some c →
      ∃ f ∈ findings table (Body.read source).items, f.Colors (name :: path) c) ∧
    ∀ path, (tree.get? path).isSome → path = [] ∨
      ∃ f ∈ findings table (Body.read source).items, f.Accepted ∧ f.verdict.location?.isSome ∧
        name :: path <+: f.path
  /-- Each style has its color and its flags from accepted attributes. -/
  styles : ∀ shown style, (shown, style) ∈ (ofSource table source).styles →
    ∃ group : Path, shown = Node.listed group.tail ∧
      (∃ f ∈ findings table (Body.read source).items, f.Colors group style.color) ∧
      ∀ flag, style.has flag = true →
        ∃ f ∈ findings table (Body.read source).items, f.Accepted ∧
          f.verdict.flag? = some (group, flag, true)

variable {table : BlockTable} {source : String} {flaws : List Flaw} {f : Finding}

/-- Nothing is defined at the name of a rejected item. -/
theorem get?_symbols_ne_of_rejected (h : Regular table (Body.read source).items)
    (hf : f ∈ findings table (Body.read source).items) (hrejected : f.Rejected) (path : Path) :
    (ofBody table (Body.read source).items flaws).symbols.get? path ≠ some f.item.name.span := by
  intro hpath
  obtain ⟨g, hg, hsymbol⟩ := (get?_symbols h).1 hpath
  obtain ⟨-, -, hname⟩ := accepted_of_symbol? hg hsymbol
  have hfindings := (List.nodup_append.1 (nodup_findings h)).2.1
  obtain rfl := List.inj_on_of_nodup_map hfindings hf hg hname
  obtain ⟨taken, d, hverdict, -⟩ := hrejected
  rw [hverdict] at hsymbol
  cases hsymbol

/-- **Every item is accounted for exactly once**, for every table with a palette whose blocks are
told apart by their names and are not called `meta`, and for every source with a palette. -/
theorem accounted (htable : ∃ rule ∈ table, rule.name = paletteName)
    (hnames : (table.map BlockRule.name).Nodup) (hmeta : metaName ∉ table.map BlockRule.name)
    (hpalette : ((Body.read source).items.block? paletteName).isSome = true) :
    Accounted table source := by
  have h : Regular table (Body.read source).items :=
    ⟨hnames, hmeta, BlockTable.knows_iff.2 (.inr htable), hpalette⟩
  refine ⟨?_, nodup_findings h, ?_, errors_ofBody h.palette, ?_, ?_, ?_, ?_, ?_⟩
  · intro enclosing item
    refine ⟨found_of_reached h, ?_⟩
    rintro (⟨rfl, block, hblock, rfl⟩ | ⟨f, hf, rfl, rfl⟩)
    · exact .top (Body.mem_blocks.1 (List.mem_of_find?_eq_some hblock))
    · exact reached_of_mem_findings h hf
  · intro f hf
    rcases accepted_or_rejected hf with haccepted | hrejected
    · exact .inl ⟨haccepted, Accepted.diagnostic? haccepted,
        get?_symbols_of_accepted h hf haccepted⟩
    · exact .inr ⟨hrejected, get?_symbols_ne_of_rejected h hf hrejected⟩
  · intro path name hname
    obtain ⟨f, hf, hsymbol⟩ := (get?_symbols h).1 hname
    exact ⟨f, hf, accepted_of_symbol? hf hsymbol⟩
  · intro location hlocation
    obtain ⟨v, hv, a, ha, heq⟩ := (mem_colors_iff h.palette).1 hlocation
    obtain ⟨c, hc, hvisit⟩ := mem_visits.1 hv
    obtain ⟨hf, haccepted, -⟩ := colors_of_resolvesTo hc hvisit ha
    refine ⟨v.finding, hf, haccepted, a, ha.1, by rw [heq], ?_⟩
    show v.verdict.location? = some location
    rw [ha.2, heq]
    rfl
  · intro key text hnote
    obtain ⟨f, hf, haccepted, hread⟩ := exists_accepted_of_mem_log h.palette Verdict.note?
      (fun _ => rfl) (fun _ _ => rfl) hnote
    refine ⟨f, hf, haccepted, ?_, hread⟩
    unfold Finding.Accepted at haccepted
    cases hverdict : f.verdict <;> rw [hverdict] at hread haccepted <;> cases hread
    exact (Prod.mk.inj (Option.some.inj haccepted)).1.symm
  · intro name tree htree
    exact ⟨exists_block_of_scope hnames htree,
      fun path c hc => exists_colors_of_scope hnames htree hc,
      fun path hpath => exists_path_of_scope hnames htree hpath⟩
  · intro shown style hstyle
    exact exists_colors_of_style hstyle

/-- A palette that defines a color twice, and a note. -/
def twiceSource : String :=
  "meta \x7b\n name = \"n\"\n \x7d\n palette \x7b\n x = #010203\n x = #040506\n \x7d"

theorem accounted_twiceSource :
    Accounted .standard twiceSource ∧
      (findings .standard (Body.read twiceSource).items).length = 4 ∧
      (ofSource .standard twiceSource).errors.length = 1 :=
  ⟨accounted (by decide) (by decide) (by decide) (by decide +kernel), by decide +kernel,
    by decide +kernel⟩

end ColorTheme.Analysis

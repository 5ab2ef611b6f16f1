import ColorTheme.Config
import ColorTheme.Proofs.Account.Styles
import ColorTheme.Proofs.Grammar.Torn

/-!
# Nothing of a source is missing from its theme

* `Theme.Holds` : what an attribute says stands in a theme: as a note, as the color of a node, or
  as a flag of the style of its group.
* `Theme.holds_of_ofAnalysis` : a theme that is settled holds all attributes that are read.
* `Config.Keeps`, `Config.generate_keeps` : so a source is lost in its output only where the value
  of an attribute breaks off at a dot.
* `Config.not_flawless_of_generate` : there a source has a flaw and its output comes all the same.
-/

set_option autoImplicit false

namespace ColorTheme

/-- **The theme has what the attribute of the block `enclosing` says.**  A style belongs to a
color, so a flag is in the style of its group if the group has a color. -/
inductive Theme.Holds (theme : Theme) (enclosing : Path) (a : Attribute) : Prop
  | note {text : String} (block : enclosing = [metaName]) (literal : literalText? a.value = some text)
      (kept : theme.notes.get? a.name.name = some text)
  | color (rule : BlockRule) {tree : Node} {c : Color} (known : rule ∈ BlockTable.standard)
      (block : enclosing.head? = some rule.name) (plain : rule.flag? enclosing a.name.name = none)
      (resolved : theme.scopes.resolve a.value = .ok c)
      (scope : theme.scopes.get? rule.name = some tree)
      (kept : tree.colorAt (rule.target (enclosing ++ [a.name.name])) = some c)
  | flag (rule : BlockRule) {tree : Node} {flag : StyleFlag} {value : Bool}
      (known : rule ∈ BlockTable.standard) (block : enclosing.head? = some rule.name)
      (isFlag : rule.flag? enclosing a.name.name = some flag)
      (resolved : evaluate theme.scopes a.value = .ok (.truth value))
      (scope : theme.scopes.get? rule.name = some tree)
      (kept : ∀ c, tree.colorAt enclosing.tail = some c →
        ∃ style, theme.styles.get? (Node.listed enclosing.tail) = some style ∧ style.color = c ∧
          style.has flag = value)

namespace Analysis

/-- What a theme takes from an analysis. -/
def theme (a : Analysis) : Theme := ⟨a.notes, a.scopes, a.styles⟩

variable {table : BlockTable} {body : Body} {flaws : List Flaw} {source : String} {f : Finding}
  {c : Chapter} {v : Visit} {a : Attribute} {enclosing : Path} {item : Item}

/-- Where all items are accepted, there is a finding on every item inside the document, the `meta`
block excepted. -/
theorem found_of_within (h : Regular table body) (haccepted : ∀ f ∈ findings table body, f.Accepted)
    (hwithin : Within body enclosing item) :
    IsMeta body enclosing item ∨ Found table body enclosing item := by
  induction hwithin with
  | top mem => exact found_of_mem h mem
  | @inside enclosing kind inner span item outer mem ih =>
    right
    rcases ih with ⟨rfl, block, hblock, heq⟩ | ⟨f, hf, rfl, hitem⟩
    · obtain ⟨rfl, rfl, -⟩ := Item.block.inj heq
      rw [Body.name_of_block? hblock]
      exact found_inMeta hblock mem
    · have hblock : f.item = Block.item ⟨kind, inner, span⟩ := hitem
      have hinside : Found table body f.path item := found_inside hf (haccepted f hf) hblock mem
      rw [Finding.path, hitem] at hinside
      exact hinside

/-- What an accepted note says is taken down. -/
theorem notes_of_noted (h : Regular table body) (hf : f ∈ findings table body) {key text : String}
    {name : Span} (hverdict : f.verdict = .noted key name text) :
    (ofBody table body flaws).notes.get? key = some text := by
  rw [Entries.get?_eq_some_iff (nodup_keys_notes h), notes, filterMap_log h.palette _ fun _ _ => rfl]
  exact List.mem_filterMap.2 ⟨f, hf, by rw [hverdict]; rfl⟩

/-- A value that a visit saw as a truth value is one in the finished trees. -/
theorem evaluate_finished (hproper : table.Proper) {before behind : List Chapter}
    (hchapters : chapters table body = before ++ c :: behind) {earlier later : List Visit}
    (hvisits : c.visits = earlier ++ later) {value : Bool}
    (hvalue : evaluate (c.frame.visible (c.start.after c.rule earlier).tree) a.value =
      .ok (.truth value)) :
    evaluate (ofBody table body flaws).scopes a.value = .ok (.truth value) := by
  obtain ⟨w, hw, hkeeps⟩ := evaluate_mono (visible_below hproper hchapters hvisits) a.value _ hvalue
  rw [hw, hkeeps.truth value rfl]

/-- What a colored attribute says is in the tree of its block. -/
theorem holds_of_colored (hc : c ∈ chapters .standard body) (hv : v ∈ c.visits)
    (hitem : v.item = .assignment a) {path : Path} {name : Span} {location : ColorLocation}
    (hverdict : v.verdict = .colored path name location) :
    (ofBody .standard body flaws).theme.Holds v.enclosing a := by
  have hmem := mem_visits.2 ⟨c, hc, hv⟩
  have hrule : v.rule = c.rule := c.tour.rule v hv
  obtain ⟨names, hblock, -⟩ := c.tour.enclosing_eq hv
  obtain ⟨b, hb, -⟩ := c.tour.resolvesTo_of_colored hv hverdict
  obtain rfl : b = a := Item.assignment.inj (hb.1.symm.trans hitem)
  have hoccurs := c.tour.occurs_of_resolvesTo hv hb
  have hfinished : ∃ tree, (ofBody .standard body flaws).scopes.get? v.rule.name = some tree ∧
      tree.colorAt v.nodePath.tail = some location.color :=
    colorAt_finished BlockTable.proper_standard.names hmem hb
  obtain ⟨tree, hscope, hcolor⟩ := hfinished
  refine .color v.rule ?_ (by rw [hblock, hrule]; rfl) hoccurs.noFlag
    (resolve_finished_of_proper BlockTable.proper_standard hmem hb) hscope ?_
  · rw [hrule]
    exact rule_mem_of_mem_chapters hc
  · rw [BlockRule.target_concat]
    unfold Visit.nodePath Visit.path at hcolor
    rw [hitem] at hcolor
    exact hcolor

/-- What a flagged attribute says is in the style of its group. -/
theorem holds_of_flagged (hc : c ∈ chapters .standard (Body.read source).items) (hv : v ∈ c.visits)
    (hitem : v.item = .assignment a) {path : Path} {name : Span} {flag : StyleFlag} {value : Bool}
    (hverdict : v.verdict = .flagged path name flag value) :
    (ofBody .standard (Body.read source).items flaws).theme.Holds v.enclosing a := by
  have hproper := BlockTable.proper_standard
  have hregular : Regular .standard (Body.read source).items :=
    ⟨hproper.names, by decide, hasPalette_of_mem_chapters hc⟩
  obtain ⟨names, hblock, -⟩ := c.tour.enclosing_eq hv
  have hblock : v.enclosing = c.rule.name :: names := hblock
  -- the verdict was come to after the visits before, in the trees as they were then
  obtain ⟨before, behind, hchapters⟩ := List.append_of_mem hc
  obtain ⟨earlier, later, hvisits⟩ := List.append_of_mem hv
  have htour := c.tour
  rw [hvisits] at htour
  have hjudged := htour.judged
  rw [hverdict] at hjudged
  obtain ⟨b, hb, hpath, -, hisFlag, htruth⟩ := hjudged.of_flagged
  obtain rfl : b = a := Item.assignment.inj (hb.symm.trans hitem)
  obtain ⟨-, hstyled, hdeep⟩ := BlockRule.name_of_flag? hisFlag
  have hgroup : names ≠ [] := by
    rintro rfl
    rw [hblock] at hdeep
    exact absurd hdeep (Nat.lt_irrefl 1)
  have hsegments : ∀ name ∈ names, IsSegment name := fun name hname =>
    (within_of_mem_findings hregular (finding_mem_of_visit hc hv)).isSegment name
      (List.mem_append_left _ (show name ∈ v.enclosing by
        rw [hblock]
        exact List.mem_cons_of_mem _ hname))
  have hset : v.verdict.flag? = some (c.rule.name :: names, flag, value) := by
    rw [hverdict, Verdict.flag?, hpath, List.dropLast_concat, hblock]
  refine .flag c.rule (rule_mem_of_mem_chapters hc) (by rw [hblock]; rfl) hisFlag
    (evaluate_finished hproper hchapters hvisits htruth)
    ((get?_scopes hproper.names _ _).2 ⟨c, hc, rfl, rfl⟩) fun color hcolor => ?_
  rw [hblock] at hcolor ⊢
  exact style_of_colored hproper hregular.noMeta (by decide) hc hv hstyled hgroup hsegments hset
    hcolor

/-- **What an accepted attribute says is in the theme.** -/
theorem holds_of_accepted (h : Regular .standard (Body.read source).items)
    (hf : f ∈ findings .standard (Body.read source).items) (haccepted : f.Accepted)
    (hitem : f.item = .assignment a) :
    (ofBody .standard (Body.read source).items flaws).theme.Holds f.enclosing a := by
  rcases List.mem_append.1 hf with hopening | hchapters
  · rcases noted_or_rejected hopening with ⟨b, text, henclosing, hb, hliteral, hverdict⟩ |
      ⟨taken, d, hverdict, -⟩
    · obtain rfl : b = a := Item.assignment.inj (hb.symm.trans hitem)
      exact .note henclosing hliteral (notes_of_noted h hf hverdict)
    · unfold Finding.Accepted at haccepted
      rw [hverdict] at haccepted
      cases haccepted
  · obtain ⟨c, hc, hchapter⟩ := List.mem_flatMap.1 hchapters
    rcases List.mem_cons.1 hchapter with rfl | hvisit
    · cases hitem
    · obtain ⟨v, hv, rfl⟩ := List.mem_map.1 hvisit
      have hitem : v.item = .assignment a := hitem
      have haccepted : v.verdict.symbol? = some (v.finding.path, v.item.name.span) := haccepted
      obtain ⟨p, hp⟩ := c.tour.exists_judged hv
      rw [hitem] at hp
      cases hverdict : v.verdict with
      | colored path name location => exact holds_of_colored hc hv hitem hverdict
      | flagged path name flag value => exact holds_of_flagged hc hv hitem hverdict
      | opened path name =>
        rw [hverdict] at hp
        cases hp
      | noted key name text =>
        rw [hverdict] at hp
        cases hp
      | rejected taken d | incomplete d =>
        rw [hverdict] at haccepted
        cases haccepted

end Analysis

/-! ## Settled themes -/

namespace Theme

variable {strictAnsi : Bool} {source : String} {theme : Theme}

theorem errors_of_ofAnalysis {a : Analysis} (h : ofAnalysis strictAnsi a = .ok theme) :
    a.errors = [] := by
  have hno : a.hasErrors = false := by
    by_contra hne
    rw [ofAnalysis_of_hasErrors (eq_true_of_ne_false hne)] at h
    cases h
  exact List.filter_eq_nil_iff.2 (List.any_eq_false.1 hno)

/-- A theme is settled only if the one flaw of the source is a dot that no name follows. -/
theorem nameAfterDot_of_ofAnalysis
    (h : ofAnalysis strictAnsi (Analysis.ofSource .standard source) = .ok theme) :
    ∀ flaw ∈ (Body.read source).flaws, flaw.kind = .nameAfterDot := by
  have herrors := errors_of_ofAnalysis h
  rw [Analysis.ofSource, Analysis.errors_ofBody (regular_of_ofAnalysis h).palette] at herrors
  obtain ⟨hflaws, -⟩ := List.append_eq_nil_iff.1 herrors
  intro flaw hflaw
  simpa using List.filter_eq_nil_iff.1 (List.map_eq_nil_iff.1 hflaws) flaw hflaw

/-- A theme is settled only if all items are accepted. -/
theorem accepted_of_ofAnalysis
    (h : ofAnalysis strictAnsi (Analysis.ofSource .standard source) = .ok theme) :
    ∀ f ∈ Analysis.findings .standard (Body.read source).items, f.Accepted := by
  have herrors := errors_of_ofAnalysis h
  rw [Analysis.ofSource, Analysis.errors_ofBody (regular_of_ofAnalysis h).palette] at herrors
  obtain ⟨-, hverdicts⟩ := List.append_eq_nil_iff.1 herrors
  intro f hf
  refine (Analysis.accepted_or_rejected hf).resolve_right fun hrejected => ?_
  obtain ⟨d, hd, -⟩ := Analysis.Rejected.diagnostic? hrejected
  have hsilent := List.filterMap_eq_nil_iff.1 hverdicts f hf
  rw [hd] at hsilent
  cases hsilent

/-- **A theme that is settled holds all attributes that are read.** -/
theorem holds_of_ofAnalysis
    (h : ofAnalysis strictAnsi (Analysis.ofSource .standard source) = .ok theme) {enclosing : Path}
    {a : Attribute} (hwithin : Within (Body.read source).items enclosing (.assignment a)) :
    theme.Holds enclosing a := by
  have hregular := regular_of_ofAnalysis h
  have haccepted := accepted_of_ofAnalysis h
  obtain rfl := of_ofAnalysis h
  rcases Analysis.found_of_within hregular haccepted hwithin with
    ⟨-, block, -, hitem⟩ | ⟨f, hf, rfl, hitem⟩
  · cases hitem
  · exact Analysis.holds_of_accepted hregular hf (haccepted f hf) hitem

end Theme

/-! ## Output -/

theorem exists_ok_of_toOption {ε α : Type} {result : Except ε α}
    (h : result.toOption.isSome = true) : ∃ value, result = .ok value := by
  cases result with
  | error cause => cases h
  | ok value => exact ⟨value, rfl⟩

namespace Config

/-- Nothing of a source is missing from its output, but for attributes whose values break off at a
dot. -/
structure Keeps (config : Config) (source : String) (target : Target) (text : String) : Prop where
  /-- The wording has no other flaws than dots that no name follows. -/
  flaws : ∀ flaw ∈ (Body.read source).flaws, flaw.kind = .nameAfterDot
  /-- Each flaw is the dot at which the value of an attribute breaks off.  This attribute and the
  rest of its line are not among the items, and all else is. -/
  torn : Grammar.IsTornDocument (tokenize source) (Body.read source).items (Body.read source).flaws
  /-- The output is that of a theme which has what all attributes among the items say. -/
  theme : ∃ theme, Theme.ofAnalysis config.strictAnsi (.ofSource .standard source) = .ok theme ∧
    text = target.render theme ∧
    ∀ enclosing a, Within (Body.read source).items enclosing (.assignment a) →
      theme.Holds enclosing a

/-- **Output is not missing anything but what breaks off at a dot**, for every source,
configuration and target. -/
theorem generate_keeps {config : Config} {source : String} {target : Target} {text : String}
    (h : config.generate source target = .ok text) : config.Keeps source target text := by
  obtain ⟨theme, hsettled, rfl⟩ := generate_eq_ok.1 h
  have hflaws := Theme.nameAfterDot_of_ofAnalysis hsettled
  exact ⟨hflaws, Grammar.isTornDocument_of_read hflaws, theme, hsettled, rfl,
    fun enclosing a hwithin => Theme.holds_of_ofAnalysis hsettled hwithin⟩

/-- A document with a note, a flag, and an attribute that breaks off at a dot. -/
def draftSource : String :=
  "meta \x7b\n  name = \"draft\"\n\x7d\n" ++
  "palette \x7b\n  pine = #31748f\n  gold = brighten(palette.\n\x7d\n" ++
  "syntax \x7b\n  word \x7b\n    color = palette.pine\n    bold = true\n  \x7d\n\x7d\n"

theorem generate_keeps_draftSource :
    ∃ text, (⟨.json, none, false⟩ : Config).generate draftSource .flat = .ok text ∧
      (⟨.json, none, false⟩ : Config).Keeps draftSource .flat text := by
  have hsettled : ((⟨.json, none, false⟩ : Config).generate draftSource .flat).toOption.isSome =
      true := by
    decide +kernel
  obtain ⟨text, htext⟩ := exists_ok_of_toOption hsettled
  exact ⟨text, htext, generate_keeps htext⟩

/-- A document with nothing in it but an attribute that breaks off at a dot. -/
def brokenOffSource : String := "palette \x7b\n  a = palette.\n\x7d\n"

/-- A document without a flaw, with a flag on a group that has no color. -/
def colorlessSource : String :=
  "palette \x7b\n\x7d\nsyntax \x7b\n  word \x7b\n    bold = true\n  \x7d\n\x7d\n"

/-- Output does not tell of a source without a flaw: here it leaves out an attribute that breaks
off.  And of a source without a flaw, it leaves out a flag where there is no color. -/
theorem not_flawless_of_generate :
    (¬ ∀ (config : Config) (source : String) (target : Target) (text : String),
      config.generate source target = .ok text → (Body.read source).flaws = []) ∧
    (Body.read colorlessSource).flaws = [] ∧
    (∃ v ∈ Analysis.visits .standard (Body.read colorlessSource).items,
      v.verdict.flag? = some (["syntax", "word"], .bold, true)) ∧
    ∃ theme, Theme.ofAnalysis false (.ofSource .standard colorlessSource) = .ok theme ∧
      theme.styles = [] := by
  refine ⟨fun hall => ?_, by decide +kernel, by decide +kernel, ?_⟩
  · have hflaws : (Body.read brokenOffSource).flaws ≠ [] := by decide +kernel
    have hsettled : ((⟨.flat, none, false⟩ : Config).generate brokenOffSource .flat).toOption.isSome =
        true := by
      decide +kernel
    obtain ⟨text, htext⟩ := exists_ok_of_toOption hsettled
    exact hflaws (hall _ _ _ text htext)
  · have hstyles : (Theme.ofAnalysis false (.ofSource .standard colorlessSource)).toOption.map
        (fun theme => theme.styles.isEmpty) = some true := by
      decide +kernel
    cases hsettled : Theme.ofAnalysis false (.ofSource .standard colorlessSource) with
    | error cause =>
      rw [hsettled] at hstyles
      cases hstyles
    | ok theme =>
      rw [hsettled] at hstyles
      exact ⟨theme, rfl, List.isEmpty_iff.1 (Option.some.inj hstyles)⟩

end Config

end ColorTheme

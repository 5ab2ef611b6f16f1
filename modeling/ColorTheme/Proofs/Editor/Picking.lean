import ColorTheme.Editor.Feature
import ColorTheme.Proofs.Compare.Repainted
import ColorTheme.Proofs.Editor.Place
import ColorTheme.Proofs.Item.Extent
import ColorTheme.Proofs.Item.Repaint
import ColorTheme.Proofs.Text.Blank

/-!
# Picking a color

* `Document.presentation?_literal`, `Document.presentation?_word` : what is offered for the text of
  a literal, and for one that begins with a word.
* `Analysis.sparesNotes_repaint` : a color of an analysis does not stand in `meta`.
* `Document.Offers` : another color is offered for a literal, and when it is picked, the attribute
  resolves to it and nothing else changes, but for what is derived from it.
* `Document.picks` : this holds for all literals of a document, and for a path or a call no color is
  offered.
-/

set_option autoImplicit false

namespace ColorTheme

/-! ## What is offered -/

theorem isBlank_of_first {c : Char} (h : c.isAlpha = true ∨ c = '_') : isBlank c = false := by
  rcases h with h | rfl
  · have hletter := toNat_of_isAlpha h
    exact isBlank_of_visible (by omega)
  · decide

namespace Document

variable {d : Document} {range : Range}

/-- For a literal the same kind of literal is offered. -/
theorem presentation?_literal {kind : TokenKind} {text : List Char} (hlexeme : Lexeme kind text)
    (hkind : kind = .quoted ∨ kind = .hex) (h : d.textIn? range = some text) (c : Color) :
    presentation? d range c = some (kind.wording c) := by
  rcases hkind with rfl | rfl
  · cases hlexeme with
    | quoted inside =>
      rw [presentation?, h, Option.bind_some]
      rfl
  · cases hlexeme with
    | hex some digits =>
      rw [presentation?, h, Option.bind_some]
      rfl

/-- For a word nothing is offered. -/
theorem presentation?_word {first : Char} {more : List Char}
    (hfirst : first.isAlpha = true ∨ first = '_') (h : d.textIn? range = some (first :: more))
    (c : Color) : presentation? d range c = none := by
  have hblank := isBlank_of_first hfirst
  rw [presentation?, h, Option.bind_some, trimStart, List.dropWhile_cons_of_neg (by simp [hblank])]
  split
  · rename_i heq
    cases heq
    exact absurd hfirst (by decide)
  · rename_i heq
    cases heq
    exact absurd hfirst (by decide)
  · rfl

end Document

/-! ## Colors of an analysis -/

section

variable {source : String} {location : ColorLocation}

/-- The attribute stands in the block `enclosing` of the source, and resolves to the color. -/
structure Resolves (source : String) (enclosing : Path) (a : Attribute) (c : Color) : Prop where
  within : Within (Body.read source).items enclosing (.assignment a)
  verdict : .colored (enclosing ++ [a.name.name]) a.name.span
    ⟨a.value.span, c, a.value.isReference⟩ ∈ (Analysis.ofSource .standard source).log

namespace Analysis

theorem regular_of_mem_visits {v : Visit}
    (hv : v ∈ visits .standard (Body.read source).items) :
    Regular .standard (Body.read source).items :=
  ⟨BlockTable.proper_standard.names, by decide, hasPalette_of_mem_visits hv⟩

theorem verdict_mem_log_of_visit {table : BlockTable} {body : Body} {flaws : List Flaw} {v : Visit}
    (hv : v ∈ visits table body) : v.verdict ∈ (ofBody table body flaws).log := by
  obtain ⟨e, he, hvisit⟩ := mem_visits.1 hv
  rw [log_of_hasPalette (hasPalette_of_mem_visits hv)]
  refine List.mem_append_right _ (List.mem_flatMap.2 ⟨e, he, ?_⟩)
  rw [e.verdicts_eq]
  have hfinding : v.finding ∈ e.findings := List.mem_cons_of_mem _ (List.mem_map_of_mem hvisit)
  exact List.mem_append_left _ (List.mem_map_of_mem (f := Finding.verdict) hfinding)

/-- **Each color is that of an attribute that resolves to it.** -/
theorem exists_resolves (h : location ∈ (ofSource .standard source).colors) :
    ∃ enclosing a, Resolves source enclosing a location.color ∧ a.value.span = location.span ∧
      ∃ scopes : Scopes, scopes.resolve a.value = .ok location.color := by
  obtain ⟨v, hv, a, ha, hitem, heq⟩ := exists_visit_of_color h
  obtain ⟨e, he, hvisit⟩ := mem_visits.1 hv
  have hwithin := within_of_mem_findings (regular_of_mem_visits hv) (finding_mem_of_visit he hvisit)
  refine ⟨v.enclosing, a, ⟨?_, ?_⟩, by rw [heq], exists_resolve_of_visit hv ha⟩
  · rw [← ha.1]
    exact hwithin
  · have hpath : v.path = v.enclosing ++ [a.name.name] := by rw [Visit.path, ha.1]; rfl
    rw [← hpath, ← ha.2]
    exact verdict_mem_log_of_visit hv

/-- **A color does not stand in `meta`**: an attribute of that block is found there, and nowhere
else. -/
theorem sparesNotes_repaint (h : location ∈ (ofSource .standard source).colors) (length : Nat)
    (c : Color) : (Retouch.repaint location.span length c).SparesNotes (Body.read source).items := by
  intro block hblock b hb
  obtain ⟨v, hv, a, ha, hitem, heq⟩ := exists_visit_of_color h
  obtain ⟨e, he, hvisit⟩ := mem_visits.1 hv
  have hregular := regular_of_mem_visits hv
  refine if_neg fun hspan => ?_
  have hfound : Found .standard _ [metaName] _ :=
    found_inMeta hblock (Body.mem_attributes.1 hb)
  obtain ⟨f, hf, henclosing, hfitem⟩ := hfound
  have hbitem := mem_spreadAll_of_mem_findings hf
  rw [hfitem] at hbitem
  obtain rfl := Body.eq_of_valueStart hitem hbitem (by rw [hspan, heq])
  have hnodup := (List.nodup_append.1 (nodup_findings hregular)).2.1
  have hvf : v.finding = f := by
    refine List.inj_on_of_nodup_map hnodup (finding_mem_of_visit he hvisit) hf ?_
    rw [hfitem, ← ha.1]
    rfl
  obtain ⟨names, hnames, -⟩ := e.tour.enclosing_eq hvisit
  have hrule : e.rule.name = metaName := by
    have hmeta : v.enclosing = [metaName] := by
      rw [← henclosing, ← hvf]
      rfl
    exact (List.cons.inj (hnames.symm.trans hmeta)).1
  exact hregular.noMeta (hrule ▸ List.mem_map_of_mem (rule_mem_of_mem_chapters he))

end Analysis

end

/-! ## Another color -/

/-- An attribute whose value is a literal resolves to the color that is painted, or to the same as
before. -/
theorem Resolves.retouch {source other : String} {r : Retouch} {enclosing : Path} {a : Attribute}
    {c : Color} (h : Resolves source enclosing a c)
    (hretouched : Analysis.Retouched .standard r source other)
    (hliteral : a.value.literal?.isSome) :
    Resolves other enclosing (r.assignment a) ((r.paint a.value.span).getD c) := by
  have hhas : (Body.read source).items.HasLiteral a.value.span :=
    ⟨a, h.within.mem_spreadAll, rfl, hliteral⟩
  have hspan : (r.assignment a).value.span = r.span a.value.span := r.span_expr a.value
  have hreference : (r.assignment a).value.isReference = a.value.isReference :=
    isReference_expr r a.value
  obtain ⟨w, hw, hfollows⟩ := exists_of_forall₂ hretouched.verdicts h.verdict
  constructor
  · rw [hretouched.items]
    have hwithin := h.within.retouch r
    rwa [Retouch.item] at hwithin
  · rw [hspan, hreference]
    cases hfollows with
    | painted literal paint =>
      rw [paint]
      exact hw
    | derived d noLiteral => exact absurd hhas noLiteral
    | kept unpainted =>
      rw [unpainted _ rfl]
      exact hw

/-- The change of a document in which the literal of an attribute is given the color `c`. -/
def Attribute.picked (a : Attribute) (kind : TokenKind) (c : Color) : Retouch :=
  .repaint a.value.span (byteLength (kind.wording c).toList) c

namespace Document

variable {d : Document} {enclosing : Path} {a : Attribute} {kind : TokenKind}
  {location : ColorLocation}

/-- The document after a color was picked for the literal of an attribute. -/
def pick (d : Document) (version : Int) (a : Attribute) (kind : TokenKind) (c : Color) : Document :=
  d.apply version (d.replacement a.value.span (kind.wording c))

/-- The color `c` is offered for the literal of an attribute, as a literal of the same kind.  When
it is picked, the attribute resolves to it, all other literals keep their colors, and what else is
known of the document follows. -/
structure Offers (d : Document) (enclosing : Path) (a : Attribute) (kind : TokenKind) (c : Color) :
    Prop where
  offered : presentation? d (d.range a.value.span) c = some (kind.wording c)
  retouched : ∀ version,
    Analysis.Retouched .standard (a.picked kind c) d.text (d.pick version a kind c).text
  picked : ∀ version,
    ((a.picked kind c).assignment a).value.literal? = some (kind, c.hex) ∧
      Resolves (d.pick version a kind c).text enclosing ((a.picked kind c).assignment a) c
  others : ∀ version around b literal old, Resolves d.text around b old →
    b.value.literal? = some literal → b.value.span ≠ a.value.span →
    ((a.picked kind c).assignment b).value.literal? = some literal ∧
      Resolves (d.pick version a kind c).text around ((a.picked kind c).assignment b) old

/-- A literal of color stands in the text of its document, and another can stand in its place. -/
theorem exists_repainted_literal {value : String} {old : Color}
    (ha : .assignment a ∈ spreadAll (Body.read d.text).items)
    (hliteral : a.value.literal? = some (kind, value)) (hvalue : Color.ofHex? value = some old)
    (c : Color) : (∃ text, Lexeme kind text ∧ (kind = .quoted ∨ kind = .hex) ∧
        d.textIn? (d.range a.value.span) = some text) ∧
      ∀ version, tokenize (d.pick version a kind c).text =
        (tokenize d.text).map (a.picked kind c).token := by
  obtain ⟨t, ht, hspan, htoken⟩ := Body.exists_literal ha hliteral
  obtain ⟨hsame, hkind⟩ := Token.literal?_kind htoken
  obtain ⟨before, after, hcut, hplace, htokens⟩ := exists_repainted ht htoken hvalue c
  have hlexeme : Lexeme t.kind t.text.toList := by
    refine lexeme_of_mem_tokenize ht ?_ ?_ <;>
      (rw [hsame]; rcases hkind with rfl | rfl <;> decide)
  rw [hspan] at htokens hplace
  rw [hsame] at htokens hlexeme
  have hshown := textIn?_range hcut
  rw [← hplace] at hshown
  refine ⟨⟨_, hlexeme, hkind, hshown⟩, fun version => ?_⟩
  have hedited := edited_replacement hcut (kind.wording c)
  rw [← hplace] at hedited
  exact (congrArg tokenize hedited).trans htokens

/-- **What is offered for a literal keeps its promise.** -/
theorem offers_of_literal (h : location ∈ (Analysis.ofSource .standard d.text).colors)
    (ha : Resolves d.text enclosing a location.color) (hspan : a.value.span = location.span)
    {value : String} (hliteral : a.value.literal? = some (kind, value)) (c : Color) :
    d.Offers enclosing a kind c := by
  have hitem := ha.within.mem_spreadAll
  have hvalue : Color.ofHex? value = some location.color :=
    Analysis.color_of_literal h hitem hspan hliteral
  obtain ⟨⟨text, hlexeme, hkind, hshown⟩, htokens⟩ :=
    exists_repainted_literal hitem hliteral hvalue c
  have hnotes : (a.picked kind c).SparesNotes (Body.read d.text).items := by
    rw [Attribute.picked, hspan]
    exact Analysis.sparesNotes_repaint h _ c
  have hretouched : ∀ version, Analysis.Retouched .standard (a.picked kind c) d.text
      (d.pick version a kind c).text :=
    fun version => Analysis.retouched (htokens version) hnotes
  have hpaint : (a.picked kind c).paint a.value.span = some c := if_pos rfl
  have htext (b : Attribute) : ((a.picked kind c).assignment b).value.literal? =
      b.value.literal?.map fun l => (l.1, (a.picked kind c).value b.value.span l.2) :=
    Retouch.literal?_expr _ _
  constructor
  case offered => exact presentation?_literal hlexeme hkind hshown c
  case retouched => exact hretouched
  case picked =>
    intro version
    constructor
    · rw [htext, hliteral, Option.map_some, Retouch.value, Retouch.paint?, hvalue,
        Option.bind_some, hpaint]
    · have hresolves := ha.retouch (hretouched version) (by rw [hliteral]; rfl)
      rwa [hpaint] at hresolves
  case others =>
    intro version around b literal old hb hother hne
    have hunpainted : (a.picked kind c).paint b.value.span = none := if_neg hne
    constructor
    · rw [htext, hother, Option.map_some, Retouch.value_of_none _ hunpainted]
    · have hresolves := hb.retouch (hretouched version) (by rw [hother]; rfl)
      rwa [hunpainted] at hresolves

/-- The text of a value that is no literal begins with a word. -/
theorem exists_word (ha : .assignment a ∈ spreadAll (Body.read d.text).items)
    (hliteral : a.value.literal? = none) (hnumber : ∀ x s, a.value ≠ .number x s) :
    ∃ first more, (first.isAlpha = true ∨ first = '_') ∧
      d.textIn? (d.range a.value.span) = some (first :: more) := by
  obtain ⟨t, ht, hkind, hstart, hstop⟩ := Body.exists_name ha hliteral hnumber
  have hlexeme := lexeme_of_mem_tokenize ht (by rw [hkind]; decide) (by rw [hkind]; decide)
  rw [hkind] at hlexeme
  obtain ⟨before, after, hword, hbefore, hend⟩ :=
    Span.slice?_eq_some_iff.1 (slice?_of_mem_tokenize ht)
  have hfits : a.value.span.Fits d.text.toList := by
    cases Body.placed_of_mem ha with
    | assignment fits named value => exact value.fits
  obtain ⟨front, inside, behind, hcut, hfront, hinside⟩ :=
    exists_cut hfits.start hfits.stop hfits.ordered
  have hshown := textIn?_range (d := d) hcut
  rw [hfront, hinside] at hshown
  -- the value and the word are cut off at the same place, and the word is the shorter of them
  have hsplit := splitBytes?_eq_some_iff.2 ⟨hword.trans (List.append_assoc _ _ _), hbefore⟩
  rw [hstart, splitBytes?_eq_some_iff.2 ⟨hcut.trans (List.append_assoc _ _ _), hfront⟩] at hsplit
  obtain ⟨rfl, hrest⟩ := Prod.mk.inj (Option.some.inj hsplit)
  have hshorter : byteLength t.text.toList ≤ byteLength inside := by
    rw [byteLength_append] at hend hinside
    omega
  obtain ⟨others, rfl, -⟩ := exists_append_of_byteLength_le hrest.symm hshorter
  generalize t.text.toList = text at hlexeme hshown
  cases hlexeme with
  | ident first _ => exact ⟨_, _, first, hshown⟩

/-- **Picking a color does what it promises.**  Each color of a document is that of an attribute.
If its value is a literal, any other color is offered for it, and can be picked; if it is a path or
a call, nothing is offered. -/
theorem picks (d : Document) (c : Color)
    (h : location ∈ (Analysis.ofSource .standard d.text).colors) :
    ∃ enclosing a, Resolves d.text enclosing a location.color ∧ a.value.span = location.span ∧
      match a.value with
      | .quoted _ _ => d.Offers enclosing a .quoted c
      | .hex _ _ => d.Offers enclosing a .hex c
      | .path _ _ _ | .call _ _ _ => presentation? d (d.range location.span) c = none
      | .number _ _ | .truth _ _ => False := by
  obtain ⟨enclosing, a, ha, hspan, scopes, hresolve⟩ := Analysis.exists_resolves h
  have hitem := ha.within.mem_spreadAll
  have hnothing : a.value.literal? = none → (∀ x s, a.value ≠ .number x s) →
      presentation? d (d.range location.span) c = none := by
    intro hliteral hnumber
    obtain ⟨first, more, hfirst, hshown⟩ := exists_word hitem hliteral hnumber
    rw [← hspan]
    exact presentation?_word hfirst hshown c
  refine ⟨enclosing, a, ha, hspan, ?_⟩
  cases hvalue : a.value with
  | quoted text s | hex text s =>
    exact offers_of_literal h ha hspan (by rw [hvalue]; rfl) c
  | path root rest s | call name args s =>
    exact hnothing (by rw [hvalue]; rfl) (by rw [hvalue]; exact nofun)
  | number x s | truth x s =>
    rw [hvalue, Scopes.resolve, evaluate] at hresolve
    cases hresolve

/-- A color, and another one that refers to it. -/
def referring : Document := ⟨1, "palette \x7b\n a = \"#112233\"\n b = palette.a\n\x7d\n"⟩

theorem picks_referring :
    ⟨⟨15, 24⟩, ⟨17, 34, 51⟩, false⟩ ∈ (Analysis.ofSource .standard referring.text).colors ∧
      ∃ enclosing a, Resolves referring.text enclosing a ⟨17, 34, 51⟩ ∧ a.value.span = ⟨15, 24⟩ ∧
        match a.value with
        | .quoted _ _ => referring.Offers enclosing a .quoted ⟨1, 2, 3⟩
        | .hex _ _ => referring.Offers enclosing a .hex ⟨1, 2, 3⟩
        | .path _ _ _ | .call _ _ _ =>
          presentation? referring (referring.range ⟨15, 24⟩) ⟨1, 2, 3⟩ = none
        | .number _ _ | .truth _ _ => False :=
  have hcolor : ⟨⟨15, 24⟩, ⟨17, 34, 51⟩, false⟩ ∈
      (Analysis.ofSource .standard referring.text).colors := by decide +kernel
  ⟨hcolor, picks referring ⟨1, 2, 3⟩ hcolor⟩

end Document

end ColorTheme

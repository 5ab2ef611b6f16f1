import ColorTheme.Proofs.Account.Spans
import ColorTheme.Proofs.Compare.Retouched
import ColorTheme.Proofs.Item.Value

/-!
# The analysis of a source with other literals

* `Analysis.color_of_literal` : a literal that resolves does so to the color of its text, whatever
  stands around it.
* `Retouch.Follows` : so when a source is retouched, a verdict changes in its place, and in its
  color only if it is that of a literal that was painted, or of a path or a call.
* `Analysis.retouched` : this holds for all verdicts, and symbols and problems are the same.
-/

set_option autoImplicit false

namespace ColorTheme

section

variable {source : String} {body : Body} {enclosing : Path} {item : Item} {a a' : Attribute}

/-! ## Attributes and their values -/

/-- An attribute of a source is known by where its value begins. -/
theorem Body.eq_of_valueStart (h : .assignment a ∈ spreadAll (Body.read source).items)
    (h' : .assignment a' ∈ spreadAll (Body.read source).items)
    (hstart : a'.value.span.start = a.value.span.start) : a' = a := by
  have hpairs := List.pairwise_filterMap.1 (Body.nodup_valueStarts source)
  by_contra hne
  have hsymm : Std.Symm fun i j : Item => ∀ m, i.valueStart? = some m →
      ∀ n, j.valueStart? = some n → m ≠ n := ⟨fun i j hij m hm n hn heq => hij n hn m hm heq.symm⟩
  exact hpairs.forall h' h (fun heq => hne (Item.assignment.inj heq)) _ rfl _ rfl hstart

theorem Within.retouch (h : Within body enclosing item) (r : Retouch) :
    Within (r.items body) enclosing (r.item item) := by
  induction h with
  | top mem =>
    refine .top ?_
    rw [r.items_eq_map]
    exact List.mem_map_of_mem mem
  | @inside enclosing kind inner span item outer mem ih =>
    rw [Retouch.item] at ih
    have hmem : r.item item ∈ r.items inner := by
      rw [r.items_eq_map]
      exact List.mem_map_of_mem mem
    exact ih.inside hmem

mutual

theorem spread_retouch (r : Retouch) : ∀ item : Item, (r.item item).spread = item.spread.map r.item
  | .assignment a => by
    rw [Retouch.item, Item.spread, Item.spread, List.map_singleton, Retouch.item]
  | .block kind body span => by
    rw [Retouch.item, Item.spread, Item.spread, List.map_cons, Retouch.item,
      spreadAll_retouch r body]

theorem spreadAll_retouch (r : Retouch) : ∀ items : List Item,
    spreadAll (r.items items) = (spreadAll items).map r.item
  | [] => by
    rw [Retouch.items]
    rfl
  | item :: items => by
    rw [Retouch.items, spreadAll, spreadAll, List.map_append, spread_retouch r item,
      spreadAll_retouch r items]

end

theorem mem_spreadAll_retouch (h : .assignment a ∈ spreadAll body) (r : Retouch) :
    .assignment (r.assignment a) ∈ spreadAll (r.items body) := by
  rw [spreadAll_retouch]
  have hmap := List.mem_map_of_mem (f := r.item) h
  rwa [Retouch.item] at hmap

theorem Retouch.literal?_expr (r : Retouch) (e : Expr) :
    (r.expr e).literal? = e.literal?.map fun l => (l.1, r.value e.span l.2) := by
  cases e <;> rw [Retouch.expr] <;> rfl

/-- What a literal of color resolves to. -/
theorem Scopes.resolve_literal (scopes : Scopes) {e : Expr} {kind : TokenKind} {text : String}
    {c : Color} (h : e.literal? = some (kind, text)) (hc : scopes.resolve e = .ok c) :
    Color.ofHex? text = some c := by
  have hvalue : Value.color (.text text) = .ok c := by
    cases e with
    | quoted _ _ | hex _ _ =>
      cases h
      rw [Scopes.resolve, evaluate] at hc
      exact hc
    | number _ _ | truth _ _ | path _ _ _ | call _ _ _ => cases h
  exact Value.color_text_eq_ok_iff.1 hvalue

end

namespace Analysis

variable {table : BlockTable} {source other : String} {body : Body} {flaws : List Flaw}
  {a : Attribute} {location : ColorLocation}

/-- What a visited attribute resolves to. -/
theorem exists_resolve_of_visit {v : Visit} {c : Color} (hv : v ∈ visits table body)
    (h : v.ResolvesTo a c) : ∃ scopes : Scopes, scopes.resolve a.value = .ok c := by
  obtain ⟨e, -, hvisit⟩ := mem_visits.1 hv
  obtain ⟨p, hp⟩ := e.tour.exists_judged hvisit
  rw [h.2] at hp
  obtain ⟨b, hb, -, -, -, -, -, hresolve⟩ := hp.of_colored
  obtain rfl : a = b := Item.assignment.inj (h.1.symm.trans hb)
  exact ⟨_, hresolve⟩

/-- **A literal has the color of its text.** -/
theorem color_of_literal (h : location ∈ (ofBody table (Body.read source).items flaws).colors)
    (ha : .assignment a ∈ spreadAll (Body.read source).items)
    (hspan : a.value.span = location.span) {kind : TokenKind} {text : String}
    (hliteral : a.value.literal? = some (kind, text)) : Color.ofHex? text = some location.color := by
  obtain ⟨v, hv, a', ha', hitem, heq⟩ := exists_visit_of_color h
  obtain rfl := Body.eq_of_valueStart ha hitem (by rw [hspan, heq])
  obtain ⟨scopes, hresolve⟩ := exists_resolve_of_visit hv ha'
  exact scopes.resolve_literal hliteral hresolve

end Analysis

/-! ## Verdicts -/

/-- The value at the place is a literal of color. -/
def Body.HasLiteral (body : Body) (s : Span) : Prop :=
  ∃ a, .assignment a ∈ spreadAll body ∧ a.value.span = s ∧ a.value.literal?.isSome

/-- What becomes of a verdict on an item of the body. -/
inductive Retouch.Follows (r : Retouch) (body : Body) : Verdict → Verdict → Prop
  /-- A literal is given the color that is painted. -/
  | painted {path : Path} {name : Span} {l : ColorLocation} {c : Color}
      (literal : body.HasLiteral l.span) (paint : r.paint l.span = some c) :
      Follows r body (.colored path name l)
        (.colored path (r.span name) ⟨r.span l.span, c, l.isReference⟩)
  /-- A path or a call may resolve to another color. -/
  | derived {path : Path} {name : Span} {l : ColorLocation} (c : Color)
      (noLiteral : ¬ body.HasLiteral l.span) :
      Follows r body (.colored path name l)
        (.colored path (r.span name) ⟨r.span l.span, c, l.isReference⟩)
  /-- All else stays as it is, but for its place. -/
  | kept {v : Verdict} (unpainted : ∀ l, v.location? = some l → r.paint l.span = none) :
      Follows r body v (r.verdict v)

/-- What is known of a source and of the same source retouched. -/
structure Analysis.Retouched (table : BlockTable) (r : Retouch) (source other : String) : Prop where
  /-- The items are the same, but for places and for the literals that are painted. -/
  items : (Body.read other).items = r.items (Body.read source).items
  /-- So are the verdicts on them, one by one. -/
  verdicts : List.Forall₂ (r.Follows (Body.read source).items) (ofSource table source).log
    (ofSource table other).log
  /-- The same paths are defined. -/
  symbols : (ofSource table other).symbols.map Prod.fst =
    (ofSource table source).symbols.map Prod.fst
  /-- The same notes are taken, and the same flags are set. -/
  notes : (ofSource table other).notes = (ofSource table source).notes
  flags : (ofSource table other).log.filterMap Verdict.flag? =
    (ofSource table source).log.filterMap Verdict.flag?
  /-- The same problems are found, and so the same codes are reported. -/
  problems : (ofSource table other).diagnostics.map Diagnostic.problem =
    (ofSource table source).diagnostics.map Diagnostic.problem

namespace Analysis

variable {table : BlockTable} {source other : String} {r : Retouch} {v w : Verdict}

/-- A verdict that looks like another one, under a blur that sees no colors. -/
theorem eq_or_colored (h : Blur.full.verdict w = Blur.full.verdict (r.verdict v)) :
    (∃ path name l c, v = .colored path name l ∧
      w = .colored path (r.span name) ⟨r.span l.span, c, l.isReference⟩) ∨
    (v.location? = none ∧ w = r.verdict v) := by
  cases v with
  | colored path name l =>
    cases w with
    | colored path' name' l' =>
      obtain ⟨span, c, isReference⟩ := l'
      cases h
      exact .inl ⟨path, name, l, c, rfl, rfl⟩
    | flagged _ _ _ _ | opened _ _ | noted _ _ _ | rejected _ _ | incomplete _ => cases h
  | flagged _ _ _ _ | opened _ _ | noted _ _ _ | rejected _ _ | incomplete _ =>
    cases w with
    | colored _ _ _ => cases h
    | flagged _ _ _ _ | opened _ _ | noted _ _ _ | rejected _ _ | incomplete _ =>
      exact .inr ⟨rfl, h⟩

/-- **A verdict on a literal follows what is painted, and no other verdict.** -/
theorem follows_of_mem (hitems : (Body.read other).items = r.items (Body.read source).items)
    (hv : v ∈ (ofSource table source).log) (hw : w ∈ (ofSource table other).log)
    (h : Blur.full.verdict w = Blur.full.verdict (r.verdict v)) :
    r.Follows (Body.read source).items v w := by
  rcases eq_or_colored h with ⟨path, name, l, c, rfl, rfl⟩ | ⟨hnone, rfl⟩
  · by_cases hliteral : (Body.read source).items.HasLiteral l.span
    · have hl : l ∈ (ofSource table source).colors := List.mem_filterMap.2 ⟨_, hv, rfl⟩
      have hc : ⟨r.span l.span, c, l.isReference⟩ ∈ (ofSource table other).colors :=
        List.mem_filterMap.2 ⟨_, hw, rfl⟩
      obtain ⟨a, ha, hspan, hsome⟩ := hliteral
      obtain ⟨⟨kind, text⟩, htext⟩ := Option.isSome_iff_exists.1 hsome
      have hold := color_of_literal hl ha hspan htext
      have ha' := mem_spreadAll_retouch ha r
      rw [← hitems] at ha'
      have htext' : (r.assignment a).value.literal? = some (kind, r.value l.span text) := by
        show (r.expr a.value).literal? = _
        rw [r.literal?_expr, htext, hspan]
        rfl
      have hspan' : (r.assignment a).value.span = r.span l.span := by
        rw [← hspan]
        exact r.span_expr a.value
      have hnew : Color.ofHex? (r.value l.span text) = some c :=
        color_of_literal hc ha' hspan' htext'
      cases hpaint : r.paint l.span with
      | some d =>
        rw [Retouch.value, Retouch.paint?, hold, Option.bind_some, hpaint] at hnew
        obtain rfl : d = c := Option.some.inj (d.ofHex?_hex.symm.trans hnew)
        exact .painted ⟨a, ha, hspan, hsome⟩ hpaint
      | none =>
        rw [r.value_of_none hpaint] at hnew
        obtain rfl : l.color = c := Option.some.inj (hold.symm.trans hnew)
        exact .kept fun l' hl' => by
          obtain rfl : l = l' := Option.some.inj hl'
          exact hpaint
    · exact .derived c hliteral
  · exact .kept fun l hl => by
      rw [hnone] at hl
      cases hl

/-- **What is known of a source follows its tokens.**  When other colors are given to some literals,
none of which stands in `meta`, the verdicts on paths and calls may be on other colors, but all else
stays the same. -/
theorem retouched (h : tokenize other = (tokenize source).map r.token)
    (hnotes : r.SparesNotes (Body.read source).items) : Retouched table r source other := by
  have hread := r.read_of_tokenize h
  have hitems : (Body.read other).items = r.items (Body.read source).items := by
    rw [hread]
    rfl
  have hflaws : (Body.read other).flaws.filter (·.kind != .nameAfterDot) =
      ((Body.read source).flaws.filter (·.kind != .nameAfterDot)).map r.flaw := by
    rw [hread, r.flaws_reading, List.filter_map]
    rfl
  have hhides : Blur.full.Hides r := fun _ _ _ _ => rfl
  have htracks : Log.Tracks .full r (ofSource table source).log (ofSource table other).log := by
    rw [ofSource, ofSource, hitems]
    exact tracks_ofBody hhides hnotes _ _
  constructor
  case items => exact hitems
  case verdicts =>
    obtain ⟨hlength, hzip⟩ := List.forall₂_iff_zip.1 htracks.forall₂
    refine List.forall₂_iff_zip.2 ⟨hlength, fun {v w} hmem => ?_⟩
    obtain ⟨hv, hw⟩ := List.of_mem_zip hmem
    exact follows_of_mem hitems hv hw (hzip hmem)
  case symbols =>
    have hsymbols := htracks.filterMap_eq Blur.full.symbol?_verdict r.symbol?_verdict
    have hvalues : ∀ entries : Entries Path Span,
        entries.map r.symbol = entries.mapValues r.span := fun _ => rfl
    have hempty : ([] : Entries Path Span) = Entries.mapValues r.span [] := rfl
    rw [symbols, symbols, hsymbols, hvalues, hempty, ← Entries.mapValues_putAll]
    exact Entries.keys_mapValues r.span _
  case notes => exact htracks.filterMap_same Blur.full.note?_verdict r.note?_verdict
  case flags => exact htracks.filterMap_same Blur.full.flag?_verdict r.flag?_verdict
  case problems =>
    have hdiagnostics : (ofSource table other).diagnostics =
        (ofSource table source).diagnostics.map r.diagnostic := by
      rw [ofSource, ofSource, hitems, hflaws]
      exact diagnostics_items hhides hnotes _
    rw [hdiagnostics, List.map_map]
    rfl

end Analysis

end ColorTheme

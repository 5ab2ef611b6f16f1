import ColorTheme.Editor.Feature
import ColorTheme.Proofs.Account.Spans
import ColorTheme.Proofs.Editor.Place
import ColorTheme.Proofs.Item.Strung

/-!
# The color under the cursor

* `Analysis.apart_colors` : the colors of a source stand apart from each other.
* `Analysis.colorAt?_eq_some_iff` : so there is at most one under each byte, and it is found.
* `Document.HoverExact` : what is shown at each position, told from the expressions and their text.
* `Document.hover_exact` : this is shown, in every document.
-/

set_option autoImplicit false

namespace ColorTheme

/-! ## Colors apart from each other -/

/-- No byte lies under two spans of which one ends before the other begins. -/
theorem Span.eq_false_of_before {s t : Span} {offset : Nat} (h : s.Before t)
    (hs : s.contains offset = true) : t.contains offset = false := by
  rw [Span.contains_iff] at hs
  unfold Span.Before at h
  rw [← Bool.not_eq_true, Span.contains_iff]
  omega

/-- Two values of a source that do not stand at the same place have no byte in common. -/
theorem Body.before_or_before {source : String} {a b : Attribute}
    (ha : .assignment a ∈ spreadAll (Body.read source).items)
    (hb : .assignment b ∈ spreadAll (Body.read source).items)
    (hne : a.value.span ≠ b.value.span) :
    a.value.span.Before b.value.span ∨ b.value.span.Before a.value.span := by
  have hsymm : Std.Symm fun e f : Expr => e.span.Before f.span ∨ f.span.Before e.span :=
    ⟨fun _ _ h => h.symm⟩
  have hapart := (Body.apart_values source).imp
    (S := fun e f : Expr => e.span.Before f.span ∨ f.span.Before e.span) .inl
  exact hapart.forall (List.mem_filterMap.2 ⟨_, ha, rfl⟩) (List.mem_filterMap.2 ⟨_, hb, rfl⟩)
    fun heq => hne (congrArg Expr.span heq)

namespace Analysis

variable {source : String}

/-- **The colors of a source stand apart from each other.** -/
theorem apart_colors (source : String) :
    (ofSource .standard source).colors.Pairwise fun l m =>
      l.span.Before m.span ∨ m.span.Before l.span := by
  by_cases h : HasPalette .standard (Body.read source).items
  · have hnodup : ((ofSource .standard source).colors.map ColorLocation.span).Nodup :=
      nodup_colorSpans ⟨BlockTable.proper_standard.names, by decide, h⟩
    refine (List.pairwise_map.1 hnodup).imp_of_mem fun {l m} hl hm hne => ?_
    obtain ⟨a, ha, hla⟩ := exists_item_of_color hl
    obtain ⟨b, hb, hmb⟩ := exists_item_of_color hm
    rw [hla, hmb] at hne ⊢
    exact Body.before_or_before ha hb hne
  · have hnone : (ofSource .standard source).colors = [] := by
      rw [ofSource, colors_eq, visits, chapters, if_neg h]
      rfl
    rw [hnone]
    exact .nil

/-- There is at most one color under a byte. -/
theorem eq_of_contains {l m : ColorLocation} {offset : Nat}
    (hl : l ∈ (ofSource .standard source).colors) (hm : m ∈ (ofSource .standard source).colors)
    (hlo : l.span.contains offset = true) (hmo : m.span.contains offset = true) : l = m := by
  by_contra hne
  have hsymm : Std.Symm fun l m : ColorLocation =>
      l.span.Before m.span ∨ m.span.Before l.span := ⟨fun _ _ h => h.symm⟩
  rcases (apart_colors source).forall hl hm hne with hbefore | hbefore
  · rw [Span.eq_false_of_before hbefore hlo] at hmo
    cases hmo
  · rw [Span.eq_false_of_before hbefore hmo] at hlo
    cases hlo

/-- **The color under a byte is found, and no other.** -/
theorem colorAt?_eq_some_iff {offset : Nat} {location : ColorLocation} :
    (ofSource .standard source).colorAt? offset = some location ↔
      location ∈ (ofSource .standard source).colors ∧ location.span.contains offset = true := by
  let under (l : ColorLocation) : Bool := l.span.contains offset
  constructor
  · exact fun h => ⟨List.mem_of_find?_eq_some h, List.find?_some (p := under) h⟩
  · rintro ⟨hmem, hcontains⟩
    obtain ⟨found, hfound⟩ := Option.isSome_iff_exists.1
      (List.find?_isSome (p := under).2 ⟨location, hmem, hcontains⟩)
    have hsame := eq_of_contains (List.mem_of_find?_eq_some hfound) hmem
      (List.find?_some (p := under) hfound) hcontains
    exact hfound.trans (congrArg some hsame)

/-- A color stands where an expression does, with the text of the source there. -/
theorem exists_text_of_color {location : ColorLocation}
    (h : location ∈ (ofSource .standard source).colors) :
    ∃ a text, .assignment a ∈ spreadAll (Body.read source).items ∧
      location.span = a.value.span ∧ location.isReference = a.value.isReference ∧
      location.span.slice? source.toList = some text := by
  obtain ⟨-, -, a, -, ha, heq⟩ := exists_visit_of_color h
  have hfits : a.value.span.Fits source.toList := by
    cases Body.placed_of_mem ha with
    | assignment fits named value => exact value.fits
  obtain ⟨before, text, after, hcut, hstart, hstop⟩ :=
    exists_cut hfits.start hfits.stop hfits.ordered
  refine ⟨a, text, ha, by rw [heq], by rw [heq], ?_⟩
  rw [heq]
  exact Span.slice?_eq_some_iff.2 ⟨before, after, hcut, hstart, hstop⟩

end Analysis

/-! ## What is shown -/

/-- What stands above the notations of a color: the text of a path, in bold, and nothing for any
other expression. -/
inductive Expr.Headed (text : List Char) : Expr → String → Prop
  | path (root : Ident) (rest : List Ident) (span : Span) :
      Headed text (.path root rest span) ("**" ++ String.ofList text ++ "**\n\n")
  | other {e : Expr} (noPath : ∀ root rest span, e ≠ .path root rest span) : Headed text e ""

theorem Expr.headed_iff {e : Expr} {text : List Char} {heading : String} :
    e.Headed text heading ↔
      heading = if e.isReference then "**" ++ String.ofList text ++ "**\n\n" else "" := by
  constructor
  · rintro (_ | ⟨noPath⟩)
    · rfl
    · cases e with
      | path root rest span => exact absurd rfl (noPath root rest span)
      | quoted | hex | number | truth | call => rfl
  · rintro rfl
    cases e with
    | path root rest span => exact .path root rest span
    | quoted | hex | number | truth | call => exact .other nofun

namespace Document

variable {d : Document} {a : Analysis} {p : Position} {location : ColorLocation}
  {text : List Char}

/-- The text in the range of a span is the text under the span. -/
theorem textIn?_of_slice? {s : Span} (h : s.slice? d.chars = some text) :
    d.textIn? (d.range s) = some text := by
  obtain ⟨before, after, hcut, hstart, hstop⟩ := Span.slice?_eq_some_iff.1 h
  have hrange := textIn?_range hcut
  rwa [hstart, hstop] at hrange

/-- At a position where a color is found, it is shown below its heading. -/
theorem hover?_of_colorAt? {offset : Nat} {e : Expr} {heading : String}
    (hoffset : d.offset? p = some offset) (hfound : a.colorAt? offset = some location)
    (htext : d.textIn? (d.range location.span) = some text)
    (hkind : location.isReference = e.isReference) (hheaded : e.Headed text heading) :
    hover? d a p = some ⟨heading ++ ("`" ++ location.color.hex ++ "` · `" ++ location.color.rgb ++
      "`"), d.range location.span⟩ := by
  rw [Expr.headed_iff, ← hkind] at hheaded
  rw [hover?, hoffset, Option.bind_some, hfound, Option.bind_some, hheaded]
  dsimp only
  split
  · rw [htext, Option.map_some]
  · rw [String.empty_append]

/-- What is shown at the positions of a document, by the colors of its analysis. -/
structure HoverExact (d : Document) (a : Analysis) : Prop where
  /-- No two colors have a byte in common. -/
  apart : a.colors.Pairwise fun l m => l.span.Before m.span ∨ m.span.Before l.span
  /-- There is one color at most under a byte. -/
  once : ∀ offset, ∀ l ∈ a.colors, ∀ m ∈ a.colors, l.span.contains offset = true →
    m.span.contains offset = true → l = m
  /-- The color under a byte is found, and where there is none, none is found. -/
  found : ∀ offset location, a.colorAt? offset = some location ↔
    location ∈ a.colors ∧ location.span.contains offset = true
  /-- At each position inside the expression of a color, the color is shown in two notations, and
  above them the text of the expression, if and only if it is a path.  What is shown belongs to the
  range of this text. -/
  shown : ∀ location ∈ a.colors, ∃ assigned text heading,
    .assignment assigned ∈ spreadAll (Body.read d.text).items ∧
    location.span = assigned.value.span ∧
    assigned.value.span.slice? d.chars = some text ∧ assigned.value.Headed text heading ∧
    d.textIn? (d.range location.span) = some text ∧
    ∀ p offset, d.offset? p = some offset → location.span.contains offset = true →
      hover? d a p = some ⟨heading ++ ("`" ++ location.color.hex ++ "` · `" ++
        location.color.rgb ++ "`"), d.range location.span⟩
  /-- There is such a position for each place inside the expression of a color: each place of the
  text is the offset of its position. -/
  places : ∀ offset, IsBoundary d.chars offset → d.offset? (d.position offset) = some offset
  /-- At all other positions, nothing is shown. -/
  nothing : ∀ p, (∀ offset, d.offset? p = some offset →
    ∀ location ∈ a.colors, location.span.contains offset = false) → hover? d a p = none

/-- **In every document, the one color under the cursor is shown**, and nothing where there is
none. -/
theorem hover_exact (d : Document) : d.HoverExact (Analysis.ofSource .standard d.text) := by
  constructor
  case apart => exact Analysis.apart_colors d.text
  case once => exact fun _ l hl m hm hlo hmo => Analysis.eq_of_contains hl hm hlo hmo
  case found => exact fun _ _ => Analysis.colorAt?_eq_some_iff
  case shown =>
    intro location hlocation
    obtain ⟨assigned, text, hitem, hspan, hkind, hslice⟩ := Analysis.exists_text_of_color hlocation
    have htext : d.textIn? (d.range location.span) = some text := textIn?_of_slice? hslice
    refine ⟨assigned, text, _, hitem, hspan, hspan ▸ hslice, Expr.headed_iff.2 rfl, htext, ?_⟩
    intro p offset hoffset hcontains
    exact hover?_of_colorAt? hoffset (Analysis.colorAt?_eq_some_iff.2 ⟨hlocation, hcontains⟩) htext
      hkind (Expr.headed_iff.2 rfl)
  case places =>
    intro offset hoffset
    obtain ⟨before, after, hcut, rfl⟩ := isBoundary_iff.1 hoffset
    exact offset?_position hcut
  case nothing =>
    intro p hnone
    unfold hover?
    cases hoffset : d.offset? p with
    | none => rfl
    | some offset =>
      cases hfound : (Analysis.ofSource .standard d.text).colorAt? offset with
      | none => rw [Option.bind_some, hfound]; rfl
      | some location =>
        obtain ⟨hmem, hcontains⟩ := Analysis.colorAt?_eq_some_iff.1 hfound
        rw [hnone offset hoffset location hmem] at hcontains
        cases hcontains

/-- A document with a color and a reference to it, behind a character of two bytes. -/
def echoingText : Document := ⟨1, "palette \x7b // é\n  low = #102030\n  ink = palette.low\n\x7d\n"⟩

theorem hover_exact_echoingText :
    echoingText.HoverExact (Analysis.ofSource .standard echoingText.text) ∧
      (Analysis.ofSource .standard echoingText.text).colors =
        [⟨⟨24, 31⟩, ⟨0x10, 0x20, 0x30⟩, false⟩, ⟨⟨40, 51⟩, ⟨0x10, 0x20, 0x30⟩, true⟩] ∧
      echoingText.offset? ⟨2, 14⟩ = some 46 ∧
      hover? echoingText (Analysis.ofSource .standard echoingText.text) ⟨2, 14⟩ =
        some ⟨"**palette.low**\n\n`#102030` · `rgb(16, 32, 48)`", ⟨⟨2, 8⟩, ⟨2, 19⟩⟩⟩ ∧
      echoingText.offset? ⟨2, 7⟩ = some 39 ∧
      hover? echoingText (Analysis.ofSource .standard echoingText.text) ⟨2, 7⟩ = none :=
  ⟨hover_exact echoingText, by decide +kernel, by decide +kernel, by decide +kernel,
    by decide +kernel, by decide +kernel⟩

end Document

end ColorTheme

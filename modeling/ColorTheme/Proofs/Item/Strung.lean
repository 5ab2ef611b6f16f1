import ColorTheme.Proofs.Item.Extent

/-!
# Parts that stand one behind the other

* `Strung` : things that stand under a span, one behind the other.
* `Strung.apart_flatMap`, `Strung.cons_flatMap` : so do the things under parts of the span that
  stand one behind the other.
* `Body.apart_values` : the values of the attributes of a source, at any depth, stand one behind the
  other.
-/

set_option autoImplicit false

namespace ColorTheme

variable {α β : Type} {place : α → Span} {s t : Span} {w : α} {ws : List α} {cs : List Char}

theorem Span.covers_self (s : Span) : s.Covers s := ⟨Nat.le_refl _, Nat.le_refl _⟩

/-- Things under a span, one behind the other. -/
structure Strung (place : α → Span) (s : Span) (ws : List α) : Prop where
  covers : ∀ w ∈ ws, s.Covers (place w)
  apart : ws.Pairwise fun v w => (place v).Before (place w)

namespace Strung

theorem nil (place : α → Span) (s : Span) : Strung place s [] :=
  ⟨fun _ h => absurd h List.not_mem_nil, .nil⟩

theorem singleton (h : s.Covers (place w)) : Strung place s [w] :=
  ⟨fun v hv => by rwa [List.mem_singleton.1 hv], List.pairwise_singleton _ _⟩

/-- One more thing in front of those under a span inside of `s`. -/
theorem cons (hw : s.Covers (place w)) (hst : s.Covers t) (hbefore : (place w).Before t)
    (h : Strung place t ws) : Strung place s (w :: ws) where
  covers := by
    refine List.forall_mem_cons.2 ⟨hw, fun v hv => ?_⟩
    have hv := h.covers v hv
    unfold Span.Covers at *
    omega
  apart := by
    refine .cons (fun v hv => ?_) h.apart
    have hv := h.covers v hv
    unfold Span.Covers Span.Before at *
    omega

variable {parts : List β} {span : β → Span} {f : β → List α}

/-- The things in parts that stand one behind the other. -/
theorem apart_flatMap (h : ∀ p ∈ parts, Strung place (span p) (f p))
    (hparts : parts.Pairwise fun p q => (span p).Before (span q)) :
    (parts.flatMap f).Pairwise fun v w => (place v).Before (place w) := by
  refine List.pairwise_flatMap.2 ⟨fun p hp => (h p hp).apart, ?_⟩
  refine hparts.imp_of_mem fun {p q} hp hq hbefore v hv w hw => ?_
  have hv := (h p hp).covers v hv
  have hw := (h q hq).covers w hw
  unfold Span.Covers Span.Before at *
  omega

/-- The things in parts of a span. -/
theorem flatMap (hcovers : ∀ p ∈ parts, s.Covers (span p))
    (hparts : parts.Pairwise fun p q => (span p).Before (span q))
    (h : ∀ p ∈ parts, Strung place (span p) (f p)) : Strung place s (parts.flatMap f) where
  covers v hv := by
    obtain ⟨p, hp, hv⟩ := List.mem_flatMap.1 hv
    have hv := (h p hp).covers v hv
    have hp := hcovers p hp
    unfold Span.Covers at *
    omega
  apart := apart_flatMap h hparts

/-- One thing, and behind it the things in parts. -/
theorem cons_flatMap (hw : s.Covers (place w)) (hcovers : ∀ p ∈ parts, s.Covers (span p))
    (hbehind : ∀ p ∈ parts, (place w).Before (span p))
    (hparts : parts.Pairwise fun p q => (span p).Before (span q))
    (h : ∀ p ∈ parts, Strung place (span p) (f p)) : Strung place s (w :: parts.flatMap f) where
  covers := List.forall_mem_cons.2 ⟨hw, (flatMap hcovers hparts h).covers⟩
  apart := by
    refine .cons (fun v hv => ?_) (apart_flatMap h hparts)
    obtain ⟨p, hp, hv⟩ := List.mem_flatMap.1 hv
    have hv := (h p hp).covers v hv
    have hp := hbehind p hp
    unfold Span.Covers Span.Before at *
    omega

end Strung

/-! ## Values -/

/-- The value of an attribute; nothing for a block. -/
def Item.value? : Item → Option Expr
  | .assignment a => some a.value
  | .block _ _ _ => none

theorem spreadAll_eq_flatMap (items : List Item) : spreadAll items = items.flatMap Item.spread := by
  induction items with
  | nil => rfl
  | cons item items ih => rw [spreadAll, ih, List.flatMap_cons]

mutual

theorem Item.strung_values : ∀ item : Item, (∀ i ∈ item.spread, i.Placed cs) →
    Strung Expr.span item.span (item.spread.filterMap Item.value?)
  | .assignment a, h => by
    cases h _ (Item.mem_spread _) with
    | assignment fits named value coversName coversValue behind => exact .singleton coversValue
  | .block kind body span, h => by
    cases h _ (Item.mem_spread _) with
    | block fits named coversName coversItems behind apart =>
      have hbody := strung_values_items body fun i hi => h i (List.mem_cons_of_mem _ hi)
      rw [Item.spread, List.filterMap_cons_none rfl, spreadAll_eq_flatMap, List.filterMap_flatMap]
      exact .flatMap coversItems apart hbody

/-- The values in an item stand in it, one behind the other. -/
theorem strung_values_items : ∀ items : List Item, (∀ i ∈ spreadAll items, i.Placed cs) →
    ∀ item ∈ items, Strung Expr.span item.span (item.spread.filterMap Item.value?)
  | [], _ => by simp
  | item :: items, h => by
    rw [spreadAll, List.forall_mem_append] at h
    exact List.forall_mem_cons.2 ⟨item.strung_values h.1, strung_values_items items h.2⟩

end

/-- **The values of a source stand one behind the other.** -/
theorem Body.apart_values (source : String) :
    ((spreadAll (Body.read source).items).filterMap Item.value?).Pairwise fun e f =>
      e.span.Before f.span := by
  have harranged := arranged_readBody false (lastSpan (tokenize source)) _ (spaced_tokenize source)
  rw [spreadAll_eq_flatMap, List.filterMap_flatMap]
  exact Strung.apart_flatMap (strung_values_items _ harranged.placed) harranged.apart

end ColorTheme

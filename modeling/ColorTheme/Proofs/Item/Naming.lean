import ColorTheme.Proofs.Item.SourceOrder

/-!
# Names and values where they stand

* `slice?_of_mem_tokenize` : the text of a token is the text under its span.
* `Within` : an item stands in a body, inside of blocks with the names along a path.
* `Body.slice?_name` : so the name of each item of a source is the text under its span.
* `Body.nodup_valueStarts` : no two values of a source begin at the same place.
-/

set_option autoImplicit false

namespace ColorTheme

/-! ## Tokens -/

/-- The text of the token stands where its span says in the text `cs`, which itself begins at byte
`offset`. -/
def Token.StandsIn (t : Token) (offset : Nat) (cs : List Char) : Prop :=
  ∃ before after, cs = before ++ t.text.toList ++ after ∧
    t.span = ⟨offset + byteLength before, offset + byteLength (before ++ t.text.toList)⟩

theorem Token.StandsIn.behind {t : Token} {offset : Nat} {front cs : List Char}
    (h : t.StandsIn (offset + byteLength front) cs) : t.StandsIn offset (front ++ cs) := by
  obtain ⟨before, after, rfl, hspan⟩ := h
  refine ⟨front ++ before, after, by simp only [List.append_assoc], ?_⟩
  rw [hspan, List.append_assoc, byteLength_append front, byteLength_append front, Nat.add_assoc,
    Nat.add_assoc]

theorem standsIn_of_mem_locate {offset : Nat} {ps : List Piece} {t : Token}
    (h : t ∈ locate offset ps) : t.StandsIn offset (ps.map Piece.text).flatten := by
  fun_induction locate offset ps with
  | case1 => cases h
  | case2 offset p ps stop kind hkind ih =>
    rw [List.map_cons, List.flatten_cons]
    rcases List.mem_cons.1 h with rfl | h
    · exact ⟨[], (ps.map Piece.text).flatten, by simp, by simp [stop]⟩
    · exact (ih h).behind
  | case3 offset p ps stop hkind ih =>
    rw [List.map_cons, List.flatten_cons]
    exact (ih h).behind

/-- **The text of a token is the text under its span.** -/
theorem slice?_of_mem_tokenize {source : String} {t : Token} (h : t ∈ tokenize source) :
    t.span.slice? source.toList = some t.text.toList := by
  rw [Span.slice?_eq_some_iff]
  rcases List.mem_append.1 h with h | h
  · obtain ⟨before, after, htext, hspan⟩ := standsIn_of_mem_locate h
    rw [flatten_pieces] at htext
    rw [Nat.zero_add, Nat.zero_add] at hspan
    exact ⟨before, after, htext, by rw [hspan], by rw [hspan]⟩
  · rw [List.mem_singleton.1 h]
    exact ⟨source.toList, [], by simp, rfl, by simp [Span.point]⟩

/-! ## Items inside of blocks -/

/-- The item stands in the body, inside of blocks with the names along the path. -/
inductive Within (body : Body) : List String → Item → Prop
  | top {item : Item} (mem : item ∈ body) : Within body [] item
  | inside {enclosing : List String} {kind : Ident} {inner : Body} {span : Span} {item : Item}
      (outer : Within body enclosing (.block kind inner span)) (mem : item ∈ inner) :
      Within body (enclosing ++ [kind.name]) item

theorem spread_sublist_of_mem {items : Body} {item : Item} (h : item ∈ items) :
    item.spread.Sublist (spreadAll items) := by
  obtain ⟨before, behind, rfl⟩ := List.append_of_mem h
  rw [spreadAll_append, spreadAll]
  exact (List.sublist_append_left _ _).trans (List.sublist_append_right _ _)

theorem Within.spread_sublist {body : Body} {enclosing : List String} {item : Item}
    (h : Within body enclosing item) : item.spread.Sublist (spreadAll body) := by
  induction h with
  | top mem => exact spread_sublist_of_mem mem
  | inside outer mem ih =>
    exact ((spread_sublist_of_mem mem).trans (List.sublist_cons_self _ _)).trans ih

theorem Item.mem_spread (item : Item) : item ∈ item.spread := by
  cases item <;> exact List.mem_cons_self

theorem mem_spreadAll_cons {item i : Item} {items : List Item} :
    i ∈ spreadAll (item :: items) ↔ i ∈ item.spread ∨ i ∈ spreadAll items := by
  rw [spreadAll, List.mem_append]

theorem Within.mem_spreadAll {body : Body} {enclosing : List String} {item : Item}
    (h : Within body enclosing item) : item ∈ spreadAll body :=
  h.spread_sublist.subset item.mem_spread

mutual

theorem spread_sublist_of_mem_spread {item : Item} : ∀ {outer : Item}, item ∈ outer.spread →
    item.spread.Sublist outer.spread
  | .assignment a, h => by
    obtain rfl := List.mem_singleton.1 h
    exact .refl _
  | .block kind body span, h => by
    rcases List.mem_cons.1 h with rfl | h
    · exact .refl _
    · exact .cons _ (spread_sublist_of_mem_spreadAll h)

theorem spread_sublist_of_mem_spreadAll {item : Item} : ∀ {items : List Item},
    item ∈ spreadAll items → item.spread.Sublist (spreadAll items)
  | [], h => by cases h
  | outer :: items, h => by
    rw [spreadAll]
    rcases mem_spreadAll_cons.1 h with h | h
    · exact (spread_sublist_of_mem_spread h).trans (List.sublist_append_left _ _)
    · exact (spread_sublist_of_mem_spreadAll h).trans (List.sublist_append_right _ _)

end

/-- What stands in a block of the items is among what they hold. -/
theorem mem_spreadAll_of_mem_block {items : Body} {kind : Ident} {inner : Body} {span : Span}
    {item : Item} (h : .block kind inner span ∈ spreadAll items) (hitem : item ∈ inner) :
    item ∈ spreadAll items := by
  have hsub := spread_sublist_of_mem_spreadAll h
  rw [Item.spread] at hsub
  exact hsub.subset (List.mem_cons_of_mem _ ((Within.top hitem).mem_spreadAll))

/-- **The name of an item is the text under its span.** -/
theorem Body.slice?_name {source : String} {item : Item}
    (h : item ∈ spreadAll (Body.read source).items) :
    item.name.span.slice? source.toList = some item.name.name.toList := by
  obtain ⟨t, ht, hname⟩ := Body.read_name source h
  rw [hname]
  exact slice?_of_mem_tokenize ht

/-! ## Values -/

/-- Where the value of an attribute begins. -/
def Item.valueStart? : Item → Option Nat
  | .assignment a => some a.value.span.start
  | .block _ _ _ => none

theorem filterMap_valueStart?_sublist (items : List Item) :
    (items.filterMap Item.valueStart?).Sublist (items.flatMap Item.marks) := by
  induction items with
  | nil => exact .slnil
  | cons item items ih =>
    cases item with
    | assignment a => exact .cons _ (.cons_cons _ ih)
    | block kind inner span => exact .cons _ ih

/-- **No two values of a source begin at the same place.** -/
theorem Body.nodup_valueStarts (source : String) :
    ((spreadAll (Body.read source).items).filterMap Item.valueStart?).Nodup :=
  ((Body.read_marks source).sublist (filterMap_valueStart?_sublist _)).imp Nat.ne_of_lt

end ColorTheme

import ColorTheme.Editor.Highlight
import ColorTheme.Proofs.Item.Strung
import ColorTheme.Proofs.Item.Value

/-!
# The words of a document by what they mean

* `Expr.Shows`, `Item.Shows` : the words in an expression and in an item, each with the text that
  it is written as, told from the tree alone.
* `mem_highlights_of_shows`, `exists_shows` : these, and no others, are highlighted.
* `apart_highlightsOfItems` : words that are highlighted stand one behind the other.
* `blocksFirst_perm` : a walk that goes through the blocks of a body before its attributes meets
  the same words in another order.
-/

set_option autoImplicit false

namespace ColorTheme

/-- `#[0-9A-Fa-f]{6}` -/
def IsHexColor (text : List Char) : Prop :=
  ∃ digits, text = '#' :: digits ∧ digits.length = 6 ∧ ∀ d ∈ digits, (hexDigit? d).isSome = true

/-- How a call of `name` is marked: as one of a function of the language, or not at all. -/
inductive CallMark (name : String) : Option HighlightMark → Prop
  | builtin (function : Builtin) (h : function.name = name) : CallMark name (some .defaultLibrary)
  | unknown (h : ∀ function : Builtin, function.name ≠ name) : CallMark name none

/-- The expression has a word in it that is written `text`. -/
inductive Expr.Shows (table : BlockTable) : Expr → List Char → Highlight → Prop
  | root {root : Ident} {rest : List Ident} {span : Span} (known : table.knows root.name = true) :
      Shows table (.path root rest span) root.name.toList ⟨root.span, .root, none⟩
  | segment {root segment : Ident} {rest : List Ident} {span : Span}
      (known : table.knows root.name = true) (h : segment ∈ rest) :
      Shows table (.path root rest span) segment.name.toList ⟨segment.span, .property, none⟩
  | function {name : Ident} {args : List Expr} {span : Span} {mark : Option HighlightMark}
      (h : CallMark name.name mark) :
      Shows table (.call name args span) name.name.toList ⟨name.span, .function, mark⟩
  | argument {name : Ident} {arg : Expr} {args : List Expr} {span : Span} {text : List Char}
      {w : Highlight} (h : arg ∈ args) (inside : Shows table arg text w) :
      Shows table (.call name args span) text w
  | number {value : Float} {span : Span} {text : List Char} (is : Lexeme .number text) :
      Shows table (.number value span) text ⟨span, .number, none⟩
  | color {text : String} {span : Span} (h : IsHexColor text.toList) :
      Shows table (.hex text span) text.toList ⟨span, .string, none⟩

/-- The item has a word in it, not counting the items of a block. -/
inductive Item.Shows (table : BlockTable) : Item → List Char → Highlight → Prop
  | keyword (kind : Ident) (body : Body) (span : Span) :
      Shows table (.block kind body span) kind.name.toList ⟨kind.span, .keyword, none⟩
  | declaration (a : Attribute) :
      Shows table (.assignment a) a.name.name.toList ⟨a.name.span, .property, some .declaration⟩
  | value {a : Attribute} {text : List Char} {w : Highlight} (h : a.value.Shows table text w) :
      Shows table (.assignment a) text w

variable {table : BlockTable} {cs : List Char} {w : Highlight}

theorem isHexColor_iff {text : String} : isHexColor text = true ↔ IsHexColor text.toList := by
  unfold isHexColor IsHexColor
  cases text.toList with
  | nil => simp
  | cons c digits =>
    simp only [List.head?_cons, List.length_cons, List.tail_cons, Bool.and_eq_true, beq_iff_eq,
      Option.some.injEq, List.all_eq_true, List.cons.injEq]
    constructor
    · rintro ⟨⟨rfl, hlength⟩, hdigits⟩
      exact ⟨digits, ⟨rfl, rfl⟩, by omega, hdigits⟩
    · rintro ⟨_, ⟨rfl, rfl⟩, hlength, hdigits⟩
      exact ⟨⟨rfl, by omega⟩, hdigits⟩

theorem callMark_ofName? (name : String) :
    CallMark name ((Builtin.ofName? name).map fun _ => .defaultLibrary) := by
  cases h : Builtin.ofName? name with
  | some function =>
    have hname := List.find?_some h
    exact .builtin function (by simpa using hname)
  | none =>
    refine .unknown fun function hname => ?_
    have hnone := List.find?_eq_none.1 h
    exact hnone function (by cases function <;> decide) (by simpa using hname)

/-- A call is marked in one way. -/
theorem CallMark.eq {name : String} {mark : Option HighlightMark} (h : CallMark name mark) :
    mark = (Builtin.ofName? name).map fun _ => .defaultLibrary := by
  have hmark := callMark_ofName? name
  generalize (Builtin.ofName? name).map (fun _ => HighlightMark.defaultLibrary) = other at hmark ⊢
  cases h with
  | builtin function h =>
    cases hmark with
    | builtin => rfl
    | unknown hnone => exact absurd h (hnone function)
  | unknown hnone =>
    cases hmark with
    | builtin function h => exact absurd h (hnone function)
    | unknown => rfl

/-! ## The words of lists -/

theorem highlightsOfArgs_eq (args : List Expr) :
    highlightsOfArgs table args = args.flatMap (·.highlights table) := by
  induction args with
  | nil => rfl
  | cons arg args ih => rw [highlightsOfArgs, ih, List.flatMap_cons]

theorem highlightsOfItems_eq (items : List Item) :
    highlightsOfItems table items = items.flatMap (·.highlights table) := by
  induction items with
  | nil => rfl
  | cons item items ih => rw [highlightsOfItems, ih, List.flatMap_cons]

/-- The word that an item begins with, and the words of the value of an attribute. -/
def Item.ownHighlights (table : BlockTable) : Item → List Highlight
  | .assignment a => ⟨a.name.span, .property, some .declaration⟩ :: a.value.highlights table
  | .block kind _ _ => [⟨kind.span, .keyword, none⟩]

mutual

theorem Item.highlights_eq : ∀ item : Item,
    item.highlights table = item.spread.flatMap (·.ownHighlights table)
  | .assignment a => (List.append_nil _).symm
  | .block kind body span => by
    rw [Item.highlights, Item.spread, List.flatMap_cons, highlightsOfItems_spread body]
    rfl

/-- The words of a body are those that its items have of their own. -/
theorem highlightsOfItems_spread : ∀ items : List Item,
    highlightsOfItems table items = (spreadAll items).flatMap (·.ownHighlights table)
  | [] => rfl
  | item :: items => by
    rw [highlightsOfItems, spreadAll, List.flatMap_append, Item.highlights_eq item,
      highlightsOfItems_spread items]

end

/-! ## What is shown is highlighted -/

theorem Expr.mem_highlights_of_shows {e : Expr} {text : List Char} (h : e.Shows table text w) :
    w ∈ e.highlights table := by
  induction h with
  | root known =>
    rw [Expr.highlights, if_pos known]
    exact List.mem_cons_self
  | segment known h =>
    rw [Expr.highlights, if_pos known]
    exact List.mem_cons_of_mem _ (List.mem_map.2 ⟨_, h, rfl⟩)
  | function h =>
    rw [Expr.highlights, h.eq]
    exact List.mem_cons_self
  | argument h _ ih =>
    rw [Expr.highlights, highlightsOfArgs_eq]
    exact List.mem_cons_of_mem _ (List.mem_flatMap.2 ⟨_, h, ih⟩)
  | number is => exact List.mem_singleton_self _
  | color h =>
    rw [Expr.highlights, if_pos (isHexColor_iff.2 h)]
    exact List.mem_singleton_self _

theorem Item.mem_ownHighlights_of_shows {item : Item} {text : List Char}
    (h : item.Shows table text w) : w ∈ item.ownHighlights table := by
  cases h with
  | keyword kind body span => exact List.mem_singleton_self _
  | declaration a => exact List.mem_cons_self
  | value h => exact List.mem_cons_of_mem _ (Expr.mem_highlights_of_shows h)

/-- **Every word that an item shows is highlighted.** -/
theorem mem_highlights_of_shows {items : List Item} {item : Item} {text : List Char}
    (hitem : item ∈ spreadAll items) (h : item.Shows table text w) :
    w ∈ highlightsOfItems table items := by
  rw [highlightsOfItems_spread]
  exact List.mem_flatMap.2 ⟨item, hitem, Item.mem_ownHighlights_of_shows h⟩

/-! ## What is highlighted is shown -/

/-- The word stands in the text where it says, written `text`. -/
structure Highlight.Written (cs : List Char) (w : Highlight) (text : List Char) : Prop where
  slice : w.span.slice? cs = some text
  nonempty : text ≠ []
  line : '\n' ∉ text

/-- A name is written where it stands. -/
theorem Ident.Placed.written {i : Ident} (h : i.Placed cs) (kind : HighlightKind)
    (mark : Option HighlightMark) : Highlight.Written cs ⟨i.span, kind, mark⟩ i.name.toList :=
  ⟨h.text, h.word.ne_nil, h.word.line (.inl rfl)⟩

namespace Grammar

variable {source : String} {ts rest : List Token}

/-- A token of one of these kinds is written where it stands. -/
theorem written_of_mem {t : Token} (ht : t ∈ tokenize source)
    (hkind : t.kind = .ident ∨ t.kind = .number ∨ t.kind = .hex) (kind : HighlightKind)
    (mark : Option HighlightMark) :
    Highlight.Written source.toList ⟨t.span, kind, mark⟩ t.text.toList := by
  have hlexeme := lexeme_of_mem_tokenize ht
    (by rcases hkind with hk | hk | hk <;> rw [hk] <;> decide)
    (by rcases hkind with hk | hk | hk <;> rw [hk] <;> decide)
  exact ⟨slice?_of_mem_tokenize ht, hlexeme.ne_nil, hlexeme.line hkind⟩

/-- One of the expressions, an argument among others or the only one, shows the word, and it is
written in the source where it stands. -/
def Shown (table : BlockTable) (source : String) (es : List Expr) (w : Highlight) : Prop :=
  ∃ e ∈ es, ∃ text, e.Shows table text w ∧ w.Written source.toList text

theorem Shown.cons {e : Expr} {es : List Expr}
    (hfirst : w ∈ e.highlights table → Shown table source [e] w)
    (hothers : w ∈ highlightsOfArgs table es → Shown table source es w)
    (h : w ∈ highlightsOfArgs table (e :: es)) : Shown table source (e :: es) w := by
  rw [highlightsOfArgs] at h
  rcases List.mem_append.1 h with h | h
  · obtain ⟨e', he', hshown⟩ := hfirst h
    obtain rfl := List.mem_singleton.1 he'
    exact ⟨e', List.mem_cons_self, hshown⟩
  · obtain ⟨e', he', hshown⟩ := hothers h
    exact ⟨e', List.mem_cons_of_mem e he', hshown⟩

/-- A path into a known block shows its segments. -/
theorem shown_of_isPath {t : Token} {segments : List Ident} (hw : t :: ts ⊆ tokenize source)
    (hk : t.kind = .ident) (others : IsSegments ts segments rest)
    (h : w ∈ (Expr.ofSegments (Ident.ofToken t) segments).highlights table) :
    Shown table source [.ofSegments (Ident.ofToken t) segments] w := by
  obtain ⟨read, names, rfl, hsub, rfl, hnames⟩ := others.exists_names
  unfold Expr.ofSegments at h ⊢
  rw [Expr.highlights] at h
  split at h
  · rename_i known
    rcases List.mem_cons.1 h with rfl | h
    · exact ⟨_, List.mem_singleton_self _, _, .root known,
        written_of_mem (hw List.mem_cons_self) (.inl hk) _ _⟩
    · obtain ⟨segment, hsegment, rfl⟩ := List.mem_map.1 h
      obtain ⟨s, hs, rfl⟩ := List.mem_map.1 hsegment
      have hmem : s ∈ t :: (read ++ rest) :=
        List.mem_cons_of_mem t (List.mem_append_left rest (hsub.subset hs))
      exact ⟨_, List.mem_singleton_self _, _, .segment known hsegment,
        written_of_mem (hw hmem) (.inl (hnames s hs)) _ _⟩
  · cases h

/-- A call shows its name and what its arguments show. -/
theorem shown_of_isCall {name : Token} {args : List Expr} {span : Span}
    (hw : name :: ts ⊆ tokenize source) (hk : name.kind = .ident)
    (hargs : w ∈ highlightsOfArgs table args → Shown table source args w)
    (h : w ∈ (Expr.call (Ident.ofToken name) args span).highlights table) :
    Shown table source [.call (Ident.ofToken name) args span] w := by
  rw [Expr.highlights] at h
  rcases List.mem_cons.1 h with rfl | h
  · exact ⟨_, List.mem_singleton_self _, _, .function (callMark_ofName? _),
      written_of_mem (hw List.mem_cons_self) (.inl hk) _ _⟩
  · obtain ⟨arg, harg, text, hshows, hwritten⟩ := hargs h
    exact ⟨_, List.mem_singleton_self _, text, .argument harg hshows, hwritten⟩

mutual

theorem shown_of_isExpr : ∀ {ts : List Token} {e : Expr} {rest : List Token},
    IsExpr ts e rest → ts ⊆ tokenize source → w ∈ e.highlights table → Shown table source [e] w
  | _, _, _, .quoted _ _, _, h => by cases h
  | _, _, _, .hex ts kind, hw, h => by
    rw [Expr.highlights] at h
    split at h
    · rename_i hcolor
      obtain rfl := List.mem_singleton.1 h
      exact ⟨_, List.mem_singleton_self _, _, .color (isHexColor_iff.1 hcolor),
        written_of_mem (hw List.mem_cons_self) (.inr (.inr kind)) _ _⟩
    · cases h
  | _, _, _, .number ts kind, hw, h => by
    obtain rfl := List.mem_singleton.1 h
    have hlexeme := lexeme_of_mem_tokenize (hw List.mem_cons_self) (by rw [kind]; decide)
      (by rw [kind]; decide)
    rw [kind] at hlexeme
    exact ⟨_, List.mem_singleton_self _, _, .number hlexeme,
      written_of_mem (hw List.mem_cons_self) (.inr (.inl kind)) _ _⟩
  | _, _, _, .truth _ _, _, h => by cases h
  | _, _, _, .path kind _ others, hw, h => shown_of_isPath hw kind others h
  | _, _, _, .call nameKind _ inner, hw, h =>
    shown_of_isCall hw nameKind (shown_of_isArgs inner fun t ht => hw (by simp [ht])) h

theorem shown_of_isArgs : ∀ {ts : List Token} {args : List Expr} {close : Span}
    {rest : List Token}, IsArgs ts args close rest → ts ⊆ tokenize source →
      w ∈ highlightsOfArgs table args → Shown table source args w
  | _, _, _, _, .none _ _, _, h => by cases h
  | _, _, _, _, .some before first behind more, hw, h => by
    have hstart := List.Subset.trans before.leadsTo.subset hw
    have hnext := List.Subset.trans (first.leadsTo.trans behind.leadsTo).subset hstart
    exact .cons (shown_of_isExpr first hstart) (shown_of_isMoreArgs more hnext) h

theorem shown_of_isMoreArgs : ∀ {ts : List Token} {args : List Expr} {close : Span}
    {rest : List Token}, IsMoreArgs ts args close rest → ts ⊆ tokenize source →
      w ∈ highlightsOfArgs table args → Shown table source args w
  | _, _, _, _, .close _ _, _, h => by cases h
  | _, _, _, _, .trailing _ _ _, _, h => by cases h
  | _, _, _, _, .more _ before first behind more, hw, h => by
    have hbehind := List.Subset.trans (List.subset_cons_self _ _) hw
    have hstart := List.Subset.trans before.leadsTo.subset hbehind
    have hnext := List.Subset.trans (first.leadsTo.trans behind.leadsTo).subset hstart
    exact .cons (shown_of_isExpr first hstart) (shown_of_isMoreArgs more hnext) h

end

end Grammar

/-- **Every word of a source that is highlighted is shown by an item**, and is written where it
stands. -/
theorem exists_shows {source : String}
    (h : w ∈ highlightsOfItems table (Body.read source).items) :
    ∃ item ∈ spreadAll (Body.read source).items, ∃ text,
      item.Shows table text w ∧ w.Written source.toList text := by
  rw [highlightsOfItems_spread] at h
  obtain ⟨item, hitem, h⟩ := List.mem_flatMap.1 h
  refine ⟨item, hitem, ?_⟩
  have hplaced := Body.placed_of_mem hitem
  cases item with
  | block kind body span =>
    obtain rfl := List.mem_singleton.1 h
    cases hplaced with
    | block _ named _ _ _ _ => exact ⟨_, .keyword kind body span, named.written _ _⟩
  | assignment a =>
    rcases List.mem_cons.1 h with rfl | h
    · cases hplaced with
      | assignment _ named _ _ _ _ => exact ⟨_, .declaration a, named.written _ _⟩
    · obtain ⟨start, rest, hstart, hexpr⟩ := Body.exists_isExpr hitem
      obtain ⟨e, he, text, hshows, hwritten⟩ := Grammar.shown_of_isExpr hexpr hstart.subset h
      obtain rfl := List.mem_singleton.1 he
      exact ⟨text, .value hshows, hwritten⟩

/-! ## One behind the other -/

/-- The words of an expression stand in it, one behind the other. -/
theorem Expr.Placed.strung {e : Expr} (h : e.Placed cs) :
    Strung Highlight.span e.span (e.highlights table) := by
  induction h with
  | quoted fits => exact .nil _ _
  | hex fits =>
    rw [Expr.highlights]
    split
    · exact .singleton (Span.covers_self _)
    · exact .nil _ _
  | number fits => exact .singleton (Span.covers_self _)
  | truth fits => exact .nil _ _
  | @path root rest span fits names covers apart =>
    rw [Expr.highlights]
    split
    · constructor
      case covers =>
        refine List.forall_mem_cons.2 ⟨covers root List.mem_cons_self, fun w hw => ?_⟩
        obtain ⟨segment, hsegment, rfl⟩ := List.mem_map.1 hw
        exact covers segment (List.mem_cons_of_mem root hsegment)
      case apart =>
        obtain ⟨hroot, hrest⟩ := List.pairwise_cons.1 apart
        refine .cons (fun w hw => ?_) (List.pairwise_map.2 hrest)
        obtain ⟨segment, hsegment, rfl⟩ := List.mem_map.1 hw
        exact hroot segment hsegment
    · exact .nil _ _
  | call fits named placed coversName coversArgs behind apart ih =>
    rw [Expr.highlights, highlightsOfArgs_eq]
    exact .cons_flatMap coversName coversArgs behind apart ih

mutual

theorem Item.strung : ∀ item : Item, (∀ i ∈ item.spread, i.Placed cs) →
    Strung Highlight.span item.span (item.highlights table)
  | .assignment a, h => by
    cases h _ (Item.mem_spread _) with
    | assignment fits named value coversName coversValue behind =>
      exact .cons coversName coversValue behind value.strung
  | .block kind body span, h => by
    cases h _ (Item.mem_spread _) with
    | block fits named coversName coversItems behind apart =>
      have hbody := strung_items body fun i hi => h i (List.mem_cons_of_mem _ hi)
      rw [Item.highlights, highlightsOfItems_eq]
      exact .cons_flatMap coversName coversItems behind apart hbody

/-- The words of an item stand in it, one behind the other. -/
theorem strung_items : ∀ items : List Item, (∀ i ∈ spreadAll items, i.Placed cs) →
    ∀ item ∈ items, Strung Highlight.span item.span (item.highlights table)
  | [], _ => by simp
  | item :: items, h => by
    rw [spreadAll, List.forall_mem_append] at h
    exact List.forall_mem_cons.2 ⟨Item.strung item h.1, strung_items items h.2⟩

end

/-- **The words of a source that are highlighted stand one behind the other.** -/
theorem apart_highlightsOfItems (table : BlockTable) (source : String) :
    (highlightsOfItems table (Body.read source).items).Pairwise fun v w =>
      v.span.Before w.span := by
  have harranged := arranged_readBody false (lastSpan (tokenize source)) _ (spaced_tokenize source)
  rw [highlightsOfItems_eq]
  exact Strung.apart_flatMap (strung_items _ harranged.placed) harranged.apart

/-! ## Blocks before attributes -/

/-- The words of the attributes of a body, not counting those of its blocks. -/
def attributeWords (table : BlockTable) (body : Body) : List Highlight :=
  body.attributes.flatMap fun a =>
    ⟨a.name.span, .property, some .declaration⟩ :: a.value.highlights table

mutual

/-- The words of a block as they are met when blocks come first; none of an attribute. -/
def Item.blockWords (table : BlockTable) : Item → List Highlight
  | .assignment _ => []
  | .block kind body _ =>
    ⟨kind.span, .keyword, none⟩ :: (blockWordsOf table body ++ attributeWords table body)

/-- The words of the blocks of a body. -/
def blockWordsOf (table : BlockTable) : List Item → List Highlight
  | [] => []
  | item :: items => item.blockWords table ++ blockWordsOf table items

end

/-- The words of a body, those of its blocks before those of its attributes. -/
def blocksFirst (table : BlockTable) (body : Body) : List Highlight :=
  blockWordsOf table body ++ attributeWords table body

theorem attributeWords_cons (table : BlockTable) (item : Item) (items : Body) :
    attributeWords table (item :: items) =
      attributeWords table [item] ++ attributeWords table items := by
  show attributeWords table ([item] ++ items) = _
  rw [attributeWords, Body.attributes_append, List.flatMap_append]
  rfl

mutual

theorem Item.blockWords_perm : ∀ item : Item,
    (item.blockWords table ++ attributeWords table [item]).Perm (item.highlights table)
  | .assignment a => by
    rw [Item.blockWords, List.nil_append, attributeWords, Item.highlights]
    show (_ ++ []).Perm _
    rw [List.append_nil]
  | .block kind body span => by
    rw [Item.blockWords, Item.highlights]
    show (_ ++ []).Perm _
    rw [List.append_nil]
    exact .cons _ (blocksFirst_perm body)

/-- **The order in which a body is gone through does not matter for its words.** -/
theorem blocksFirst_perm : ∀ items : List Item,
    (blocksFirst table items).Perm (highlightsOfItems table items)
  | [] => .nil
  | item :: items => by
    have hitem := Item.blockWords_perm item
    have hitems := blocksFirst_perm items
    rw [blocksFirst, blockWordsOf, attributeWords_cons, highlightsOfItems]
    refine .trans ?_ (hitem.append hitems)
    unfold blocksFirst
    rw [List.append_assoc, List.append_assoc]
    refine .append_left _ ?_
    exact List.perm_append_comm_assoc _ _ _

end

end ColorTheme

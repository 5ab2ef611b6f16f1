import ColorTheme.Proofs.Item.Extent

/-!
# The blocks around an offset

* `blocksAround` : the blocks of a document that an offset stands in, between their braces, the
  outermost first.
* `Outline` : the names of the open blocks, told from tokens alone: a name at the beginning of a
  line or behind a brace, and the brace behind it, open a block.
* `BlockLies` : a block at its place, and what it adds to the outline in front of the offset, around
  it and behind it.
* `Grammar.IsBody.outlined` : in a document that follows the grammar, the tokens up to an offset
  leave open the blocks around it.
-/

set_option autoImplicit false

namespace ColorTheme

/-- The offset stands in the block between its braces: an opening brace of the block ends there or
before, and the closing brace, which is the last character of the block, does not. -/
def Block.holds (ts : List Token) (offset : Nat) (b : Block) : Bool :=
  (ts.any fun t => t.kind == .openBrace && b.span.start ≤ t.span.start && t.span.stop ≤ offset) &&
    offset < b.span.stop

/-- The blocks among the items, those inside of others included, that hold the offset, the
outermost first. -/
def blocksAround (ts : List Token) (offset : Nat) (items : Body) : List Block :=
  ((spreadAll items).filterMap Item.block?).filter (·.holds ts offset)

/-- The names of the blocks, the innermost first. -/
def namesOutward (blocks : List Block) : List (List Char) :=
  (blocks.map fun b => b.kind.name.toList).reverse

/-- What was read behind the last line end or brace: nothing, a name, or more than that. -/
inductive Heard
  | nothing
  | name (word : List Char)
  | more

/-- The names of the open blocks, the innermost first, and what was read behind the last brace or
line end. -/
structure Outline where
  names : List (List Char)
  heard : Heard

namespace Outline

/-- How a token changes the outline.  A brace opens a block only behind a name. -/
inductive Step : Outline → Token → Outline → Prop
  | line {names : List (List Char)} {heard : Heard} {t : Token} (kind : t.kind = .newline) :
      Step ⟨names, heard⟩ t ⟨names, .nothing⟩
  | name {names : List (List Char)} {t : Token} (kind : t.kind = .ident) :
      Step ⟨names, .nothing⟩ t ⟨names, .name t.text.toList⟩
  | opening {names : List (List Char)} {word : List Char} {t : Token}
      (kind : t.kind = .openBrace) : Step ⟨names, .name word⟩ t ⟨word :: names, .nothing⟩
  | closing {names : List (List Char)} {word : List Char} {heard : Heard} {t : Token}
      (kind : t.kind = .closeBrace) : Step ⟨word :: names, heard⟩ t ⟨names, .nothing⟩
  | more {names : List (List Char)} {heard : Heard} {t : Token}
      (kind : Grammar.InValue t.kind) : Step ⟨names, heard⟩ t ⟨names, .more⟩

theorem Step.valid {o p : Outline} {t : Token} (h : Step o t p) : t.kind ≠ .invalid := by
  cases h with
  | line kind | name kind | opening kind | closing kind => rw [kind]; decide
  | more kind =>
    intro hkind
    rw [hkind] at kind
    exact absurd kind (by decide)

/-- How tokens, one after the other, change the outline. -/
inductive Run : Outline → List Token → Outline → Prop
  | nil (o : Outline) : Run o [] o
  | cons {o p q : Outline} {t : Token} {ts : List Token} (step : Step o t p)
      (others : Run p ts q) : Run o (t :: ts) q

theorem Run.append {o p q : Outline} {ss ts : List Token} (hs : Run o ss p) (ht : Run p ts q) :
    Run o (ss ++ ts) q := by
  induction hs with
  | nil o => exact ht
  | cons step _ ih => exact .cons step (ih ht)

/-- The tokens of a value leave the names as they are. -/
theorem run_inValue (names : List (List Char)) (heard : Heard) (ts : List Token)
    (h : ∀ t ∈ ts, Grammar.InValue t.kind) :
    ∃ heard', Run ⟨names, heard⟩ ts ⟨names, heard'⟩ := by
  induction ts generalizing heard with
  | nil => exact ⟨heard, .nil _⟩
  | cons t ts ih =>
    rw [List.forall_mem_cons] at h
    obtain ⟨heard', hrun⟩ := ih .more h.2
    exact ⟨heard', .cons (.more h.1) hrun⟩

end Outline

/-! ## Where blocks begin and end -/

section

variable {cs : List Char} {last : Span} {tokens ts rest : List Token} {offset : Nat}

/-- An opening brace behind `start` ends at the offset or before. -/
def OpenedBefore (tokens : List Token) (start offset : Nat) : Prop :=
  ∃ t ∈ tokens, t.kind = .openBrace ∧ start ≤ t.span.start ∧ t.span.stop ≤ offset

theorem Block.holds_iff {b : Block} :
    b.holds tokens offset = true ↔
      OpenedBefore tokens b.span.start offset ∧ offset < b.span.stop := by
  simp [Block.holds, OpenedBefore, and_assoc]

theorem OpenedBefore.mono {start start' : Nat} (h : OpenedBefore tokens start' offset)
    (hle : start ≤ start') : OpenedBefore tokens start offset := by
  obtain ⟨t, ht, hk, hstart, hstop⟩ := h
  exact ⟨t, ht, hk, Nat.le_trans hle hstart, hstop⟩

/-- Behind the offset nothing is opened before it. -/
theorem OpenedBefore.start_lt {start : Nat} (h : OpenedBefore tokens start offset)
    (hs : Spaced cs last tokens) : start < offset := by
  obtain ⟨t, ht, hk, hstart, hstop⟩ := h
  have hpos := hs.nonempty t ht (by rw [hk]; decide)
  omega

/-- The first opening brace behind a name is the next token. -/
theorem openedBefore_iff {name brace : Token} {front : List Token}
    (hs : Spaced cs last (front ++ name :: brace :: ts)) (hname : name.kind = .ident)
    (hbrace : brace.kind = .openBrace) :
    OpenedBefore (front ++ name :: brace :: ts) name.span.start offset ↔
      brace.span.stop ≤ offset := by
  have hapart := List.pairwise_append.1 hs.apart
  obtain ⟨hbehindName, hbehind⟩ := List.pairwise_cons.1 hapart.2.1
  constructor
  · rintro ⟨t, ht, hk, hstart, hstop⟩
    have hpos := hs.nonempty t ht (by rw [hk]; decide)
    rcases List.mem_append.1 ht with ht | ht
    · have hbefore : t.span.stop ≤ name.span.start := hapart.2.2 t ht name List.mem_cons_self
      omega
    · rcases List.mem_cons.1 ht with rfl | ht
      · rw [hk] at hname
        cases hname
      · rcases List.mem_cons.1 ht with rfl | ht
        · exact hstop
        · have hbefore : brace.span.stop ≤ t.span.start := List.rel_of_pairwise_cons hbehind ht
          omega
  · intro hstop
    have hpos := hs.nonempty name (by simp) (by rw [hname]; decide)
    have hbefore : name.span.stop ≤ brace.span.start := hbehindName brace List.mem_cons_self
    exact ⟨brace, by simp, hbrace, by omega, hstop⟩

namespace Grammar

/-- A block begins with one of its tokens and ends before all tokens behind it. -/
theorem IsBody.block_lies {items : Body} (h : IsBody ts items rest) (hs : Spaced cs last ts) :
    ∀ b ∈ (spreadAll items).filterMap Item.block?,
      (∃ t ∈ ts, b.span.start = t.span.start) ∧ ∀ t ∈ rest, b.span.stop ≤ t.span.start := by
  induction h with
  | none ts => intro b hb; cases hb
  | newline kind others ih =>
    intro b hb
    obtain ⟨⟨t, ht, hstart⟩, hstop⟩ := ih (hs.drop 1) b hb
    exact ⟨⟨t, List.mem_cons_of_mem _ ht, hstart⟩, hstop⟩
  | @assignment name sign ts next rest value items nameKind signKind expr line others ih =>
    intro b hb
    have hto := expr.leadsTo
    obtain ⟨⟨t, ht, hstart⟩, hstop⟩ := ih ((hs.drop 2).leadsTo hto) b hb
    exact ⟨⟨t, by simp [hto.subset t ht], hstart⟩, hstop⟩
  | @block name brace close ts next rest inner items nameKind braceKind body closeKind others
      ihInner ih =>
    have hinner := (hs.drop 2).leadsTo body.leadsTo
    have hnext := body.leadsTo.subset
    have hrest := others.leadsTo.subset
    intro b hb
    rw [spreadAll, Item.spread, List.filterMap_append, List.mem_append] at hb
    rcases hb with hb | hb
    · rcases List.mem_cons.1 hb with rfl | hb
      · have hclose : name.span.stop ≤ close.span.start :=
          hs.before close (List.mem_cons_of_mem _ (hnext close List.mem_cons_self))
        have hname := hs.nonempty name List.mem_cons_self (by rw [nameKind]; decide)
        have hspan := hinner.nonempty close List.mem_cons_self (by rw [closeKind]; decide)
        refine ⟨⟨name, List.mem_cons_self, Nat.min_eq_left ?_⟩, fun t ht => Nat.max_le.2 ?_⟩
        · show name.span.start ≤ close.span.start
          omega
        · have hbefore := hinner.before t (hrest t ht)
          refine ⟨?_, hbefore⟩
          show name.span.stop ≤ t.span.start
          omega
      · obtain ⟨⟨t, ht, hstart⟩, hstop⟩ := ihInner (hs.drop 2) b hb
        exact ⟨⟨t, by simp [ht], hstart⟩,
          fun t ht => hstop t (List.mem_cons_of_mem _ (hrest t ht))⟩
    · obtain ⟨⟨t, ht, hstart⟩, hstop⟩ := ih (hinner.drop 1) b hb
      exact ⟨⟨t, by simp [hnext t (List.mem_cons_of_mem _ ht)], hstart⟩, hstop⟩

/-- No block of the items holds an offset that is before all their tokens, or behind them. -/
theorem IsBody.blocksAround_eq_nil {items : Body} (h : IsBody ts items rest)
    (hs : Spaced cs last tokens) (hsub : ts.Sublist tokens)
    (houtside : (∀ t ∈ ts, offset ≤ t.span.start) ∨ ∃ t ∈ rest, t.span.start ≤ offset) :
    blocksAround tokens offset items = [] := by
  refine List.filter_eq_nil_iff.2 fun b hb hholds => ?_
  obtain ⟨⟨t, ht, hstart⟩, hstop⟩ := h.block_lies (hs.sublist hsub) b hb
  obtain ⟨hopened, hbefore⟩ := Block.holds_iff.1 hholds
  rcases houtside with houtside | ⟨u, hu, houtside⟩
  · have hlt := hopened.start_lt hs
    have hle := houtside t ht
    omega
  · have hle := hstop u hu
    omega

end Grammar

/-! ## Items in order -/

theorem blocksAround_assignment (a : Attribute) (items : Body) :
    blocksAround tokens offset (.assignment a :: items) = blocksAround tokens offset items := rfl

theorem blocksAround_block (kind : Ident) (inner : Body) (span : Span) (items : Body) :
    blocksAround tokens offset (.block kind inner span :: items) =
      [⟨kind, inner, span⟩].filter (·.holds tokens offset) ++
        blocksAround tokens offset inner ++ blocksAround tokens offset items := by
  have hspread : (spreadAll (.block kind inner span :: items)).filterMap Item.block? =
      [⟨kind, inner, span⟩] ++ (spreadAll inner).filterMap Item.block? ++
        (spreadAll items).filterMap Item.block? := by
    rw [spreadAll, Item.spread, List.filterMap_append]
    rfl
  rw [blocksAround, hspread, List.filter_append, List.filter_append]
  rfl

theorem namesOutward_append (a b : List Block) :
    namesOutward (a ++ b) = namesOutward b ++ namesOutward a := by
  rw [namesOutward, List.map_append, List.reverse_append]
  rfl

/-- The tokens that end at the offset or before. -/
def tokensUpTo (offset : Nat) (ts : List Token) : List Token :=
  ts.filter fun t => t.span.stop ≤ offset

theorem tokensUpTo_append (a b : List Token) :
    tokensUpTo offset (a ++ b) = tokensUpTo offset a ++ tokensUpTo offset b :=
  List.filter_append ..

theorem tokensUpTo_eq_nil (h : ∀ t ∈ ts, offset < t.span.stop) : tokensUpTo offset ts = [] := by
  refine List.filter_eq_nil_iff.2 fun t ht => ?_
  have hlt := h t ht
  simpa using hlt

theorem tokensUpTo_cons_of_le {t : Token} (h : t.span.stop ≤ offset) :
    tokensUpTo offset (t :: ts) = t :: tokensUpTo offset ts :=
  List.filter_cons_of_pos (by simpa using h)

theorem tokensUpTo_cons_of_lt {t : Token} (h : offset < t.span.stop) :
    tokensUpTo offset (t :: ts) = tokensUpTo offset ts :=
  List.filter_cons_of_neg (by simpa using h)

/-- The tokens that were read leave open the blocks of the items that are around the offset, inside
of those that were open before. -/
def Outlined (tokens : List Token) (offset : Nat) (read : List Token) (items : Body) (o : Outline) :
    Prop :=
  ∃ heard, o.Run (tokensUpTo offset read)
    ⟨namesOutward (blocksAround tokens offset items) ++ o.names, heard⟩

/-- Behind its opening brace a block holds what its closing brace does not end before. -/
theorem holds_ofTokens {name close : Token} {inner : Body} (hle : name.span.stop ≤ close.span.stop)
    (hstart : name.span.start ≤ close.span.start)
    (hopened : OpenedBefore tokens name.span.start offset) :
    Block.holds tokens offset ⟨.ofToken name, inner, name.span.merge close.span⟩ = true ↔
      offset < close.span.stop := by
  rw [Block.holds_iff]
  have hspan : name.span.merge close.span = ⟨name.span.start, close.span.stop⟩ := by
    simp only [Span.merge, Nat.min_eq_left hstart, Nat.max_eq_right hle]
  simp only [hspan, hopened, true_and]

namespace Grammar

/-- No token of a body ends before the offset if all begin behind it. -/
theorem IsBody.outlined_of_beyond {items : Body} (h : IsBody ts items rest)
    (hs : Spaced cs last tokens) (hsub : ts.Sublist tokens)
    (hbeyond : ∀ t ∈ ts, offset ≤ t.span.start) (o : Outline) :
    ∃ read, ts = read ++ rest ∧ Outlined tokens offset read items o := by
  obtain ⟨read, rfl, hread⟩ := h.leadsTo
  refine ⟨read, rfl, o.heard, ?_⟩
  rw [h.blocksAround_eq_nil hs hsub (.inl hbeyond), tokensUpTo_eq_nil]
  · exact .nil o
  · intro t ht
    have hstart := hbeyond t (List.mem_append_left _ ht)
    have hpos := hs.nonempty t (hsub.subset (List.mem_append_left _ ht)) (hread t ht)
    omega

/-- Where no brace is opened behind the first token, the items hold nothing. -/
theorem IsBody.blocksAround_of_unopened {t : Token} {items : Body}
    (h : IsBody (t :: ts) items rest) (hs : Spaced cs last (t :: ts))
    (hunopened : ¬ OpenedBefore tokens t.span.start offset) :
    blocksAround tokens offset items = [] := by
  refine List.filter_eq_nil_iff.2 fun b hb hholds => hunopened ?_
  obtain ⟨⟨u, hu, hstart⟩, -⟩ := h.block_lies hs b hb
  have hle : t.span.start ≤ u.span.start := by
    rcases List.mem_cons.1 hu with rfl | hu
    · exact Nat.le_refl _
    · have hpos := hs.span_fits List.mem_cons_self
      exact Nat.le_trans hpos.ordered (hs.before u hu)
  exact (Block.holds_iff.1 hholds).1.mono (hstart ▸ hle)

theorem outlined_newline {t : Token} {read : List Token} {items : Body} {names : List (List Char)}
    {heard : Heard} (kind : t.kind = .newline) (hstop : t.span.stop ≤ offset)
    (h : Outlined tokens offset read items ⟨names, .nothing⟩) :
    Outlined tokens offset (t :: read) items ⟨names, heard⟩ := by
  obtain ⟨heard', hrun⟩ := h
  refine ⟨heard', ?_⟩
  rw [tokensUpTo_cons_of_le hstop]
  exact .cons (.line kind) hrun

/-- The tokens of an attribute open nothing. -/
theorem outlined_assignment {ss read : List Token} {a : Attribute} {items : Body}
    {names : List (List Char)} {heard heard' : Heard}
    (hvalue : (Outline.mk names heard).Run (tokensUpTo offset ss) ⟨names, heard'⟩)
    (h : Outlined tokens offset read items ⟨names, heard'⟩) :
    Outlined tokens offset (ss ++ read) (.assignment a :: items) ⟨names, heard⟩ := by
  obtain ⟨heard, hrun⟩ := h
  refine ⟨heard, ?_⟩
  rw [tokensUpTo_append, blocksAround_assignment]
  exact hvalue.append hrun

end Grammar

/-! ## A block and the offset -/

section

open Grammar

variable {name brace close : Token} {next : List Token} {inner items : Body}
  {names : List (List Char)}

/-- A block as the grammar has it, at its place among the tokens of a document, and what is behind
it. -/
structure BlockLies (tokens : List Token) (name brace close : Token) (ts next rest : List Token)
    (inner items : Body) : Prop where
  nameKind : name.kind = .ident
  braceKind : brace.kind = .openBrace
  body : IsBody ts inner (close :: next)
  closeKind : close.kind = .closeBrace
  others : IsBody next items rest
  among : ∃ front, tokens = front ++ name :: brace :: ts

namespace BlockLies

theorem sublist (h : BlockLies tokens name brace close ts next rest inner items) :
    (name :: brace :: ts).Sublist tokens := by
  obtain ⟨front, rfl⟩ := h.among
  exact List.sublist_append_right front _

theorem opened_iff (h : BlockLies tokens name brace close ts next rest inner items)
    (hs : Spaced cs last tokens) :
    OpenedBefore tokens name.span.start offset ↔ brace.span.stop ≤ offset := by
  obtain ⟨front, rfl⟩ := h.among
  exact openedBefore_iff hs h.nameKind h.braceKind

/-- The closing brace and what is behind it, at their places. -/
theorem closing (h : BlockLies tokens name brace close ts next rest inner items)
    (hs : Spaced cs last tokens) : ∃ last, Spaced cs last (close :: next) :=
  ⟨_, ((hs.sublist h.sublist).drop 2).leadsTo h.body.leadsTo⟩

theorem holds_iff (h : BlockLies tokens name brace close ts next rest inner items)
    (hs : Spaced cs last tokens) (hopen : brace.span.stop ≤ offset) :
    Block.holds tokens offset ⟨.ofToken name, inner, name.span.merge close.span⟩ = true ↔
      offset < close.span.stop := by
  have hspaced := hs.sublist h.sublist
  have hname : name.span.stop ≤ close.span.start :=
    hspaced.before close (List.mem_cons_of_mem _ (h.body.leadsTo.subset close List.mem_cons_self))
  obtain ⟨_, hclosing⟩ := h.closing hs
  have hclose := (hclosing.span_fits List.mem_cons_self).ordered
  exact holds_ofTokens (Nat.le_trans hname hclose)
    (Nat.le_trans (hspaced.span_fits List.mem_cons_self).ordered hname) ((h.opened_iff hs).2 hopen)

/-- Its name and its opening brace open it. -/
theorem run_opening (h : BlockLies tokens name brace close ts next rest inner items)
    (hs : Spaced cs last tokens) (hopen : brace.span.stop ≤ offset) {read : List Token}
    (hin : Outlined tokens offset read inner ⟨name.text.toList :: names, .nothing⟩) :
    ∃ heard, (Outline.mk names .nothing).Run (tokensUpTo offset (name :: brace :: read))
      ⟨namesOutward (blocksAround tokens offset inner) ++ name.text.toList :: names, heard⟩ := by
  obtain ⟨heard, hrun⟩ := hin
  have hspaced := hs.sublist h.sublist
  have hname : name.span.stop ≤ brace.span.start := hspaced.before brace List.mem_cons_self
  have hbrace := (hspaced.span_fits (List.mem_cons_of_mem _ List.mem_cons_self)).ordered
  refine ⟨heard, ?_⟩
  rw [tokensUpTo_cons_of_le (Nat.le_trans hname (Nat.le_trans hbrace hopen)),
    tokensUpTo_cons_of_le hopen]
  exact .cons (.name h.nameKind) (.cons (.opening h.braceKind) hrun)

/-- Behind a block, all that was opened in it is closed. -/
theorem outlined_behind (h : BlockLies tokens name brace close ts next rest inner items)
    (hs : Spaced cs last tokens) (hopen : brace.span.stop ≤ offset)
    (hclosed : close.span.stop ≤ offset) {readInner read : List Token}
    (hin : Outlined tokens offset readInner inner ⟨name.text.toList :: names, .nothing⟩)
    (hout : Outlined tokens offset read items ⟨names, .nothing⟩) :
    Outlined tokens offset (name :: brace :: readInner ++ close :: read)
      (.block (.ofToken name) inner (name.span.merge close.span) :: items) ⟨names, .nothing⟩ := by
  obtain ⟨_, hopening⟩ := h.run_opening hs hopen hin
  obtain ⟨heard, hrun⟩ := hout
  obtain ⟨_, hclosing⟩ := h.closing hs
  have hclose := (hclosing.span_fits List.mem_cons_self).ordered
  have hinner : blocksAround tokens offset inner = [] :=
    h.body.blocksAround_eq_nil hs (.trans (List.sublist_append_right [name, brace] _) h.sublist)
      (.inr ⟨close, List.mem_cons_self, Nat.le_trans hclose hclosed⟩)
  have hnot : ¬ Block.holds tokens offset
      ⟨.ofToken name, inner, name.span.merge close.span⟩ = true := by
    rw [h.holds_iff hs hopen]
    exact Nat.not_lt_of_le hclosed
  refine ⟨heard, ?_⟩
  rw [hinner] at hopening
  rw [blocksAround_block, hinner, List.filter_cons_of_neg hnot, tokensUpTo_append,
    tokensUpTo_cons_of_le hclosed]
  exact hopening.append (.cons (.closing h.closeKind) hrun)

/-- Inside of a block, the block is around the offset, and nothing behind it is. -/
theorem outlined_inside (h : BlockLies tokens name brace close ts next rest inner items)
    (hs : Spaced cs last tokens) (hopen : brace.span.stop ≤ offset)
    (hunclosed : offset < close.span.stop) {readInner : List Token}
    (hread : ts = readInner ++ close :: next)
    (hin : Outlined tokens offset readInner inner ⟨name.text.toList :: names, .nothing⟩) :
    ∃ read, next = read ++ rest ∧
      Outlined tokens offset (name :: brace :: readInner ++ close :: read)
        (.block (.ofToken name) inner (name.span.merge close.span) :: items) ⟨names, .nothing⟩ := by
  obtain ⟨heardInner, hopening⟩ := h.run_opening hs hopen hin
  obtain ⟨_, hclosing⟩ := h.closing hs
  have hbeyond : ∀ t ∈ next, offset ≤ t.span.start := fun t ht =>
    Nat.le_of_lt (Nat.lt_of_lt_of_le hunclosed (hclosing.before t ht))
  have hsub : next.Sublist tokens := by
    refine .trans (.trans (List.sublist_append_right [name, brace] next) ?_) h.sublist
    rw [hread]
    simp
  obtain ⟨read, hnext, heard, hrun⟩ := h.others.outlined_of_beyond hs hsub hbeyond
    ⟨namesOutward (blocksAround tokens offset inner) ++ name.text.toList :: names, heardInner⟩
  refine ⟨read, hnext, heard, ?_⟩
  rw [blocksAround_block, List.filter_cons_of_pos ((h.holds_iff hs hopen).2 hunclosed),
    tokensUpTo_append, tokensUpTo_cons_of_lt hunclosed, namesOutward_append, namesOutward_append]
  simpa [namesOutward, Ident.ofToken] using hopening.append hrun

/-- In front of its opening brace a block is not yet open. -/
theorem outlined_before (h : BlockLies tokens name brace close ts next rest inner items)
    (hs : Spaced cs last tokens) (hunopened : offset < brace.span.stop) :
    ∃ read, name :: brace :: ts = read ++ rest ∧ Outlined tokens offset read
      (.block (.ofToken name) inner (name.span.merge close.span) :: items) ⟨names, .nothing⟩ := by
  have hspaced := hs.sublist h.sublist
  have hblock := IsBody.block h.nameKind h.braceKind h.body h.closeKind h.others
  have hnone := hblock.blocksAround_of_unopened hspaced fun hopened =>
    Nat.not_le_of_lt hunopened ((h.opened_iff hs).1 hopened)
  obtain ⟨read, hread, -⟩ := h.body.leadsTo.trans (.cons h.closeKind (by decide) h.others.leadsTo)
  have hplain : ∀ t ∈ tokensUpTo offset [name], InValue t.kind := by
    intro t ht
    rw [List.mem_singleton.1 (List.mem_of_mem_filter ht), h.nameKind]
    decide
  obtain ⟨heard, hrun⟩ := Outline.run_inValue names .nothing (tokensUpTo offset [name]) hplain
  refine ⟨[name] ++ brace :: read, by rw [hread]; rfl, heard, ?_⟩
  have hbeyond : ∀ t ∈ read, offset < t.span.stop := by
    intro t ht
    have hmem : t ∈ ts := hread ▸ List.mem_append_left _ ht
    have hstart := (hspaced.drop 1).before t hmem
    have hfits := hspaced.span_fits (List.mem_cons_of_mem _ (List.mem_cons_of_mem _ hmem))
    exact Nat.lt_of_lt_of_le hunopened (Nat.le_trans hstart hfits.ordered)
  rw [hnone, tokensUpTo_append, tokensUpTo_cons_of_lt hunopened, tokensUpTo_eq_nil hbeyond,
    List.append_nil]
  exact hrun

end BlockLies

end

/-- **The tokens of a body up to an offset leave open the blocks around it.**  The induction is on
the body; an item begins where nothing was heard, or else a line ends there. -/
theorem Grammar.IsBody.outlined {items : Body} (h : IsBody ts items rest) (hs : Spaced cs last tokens)
    (offset : Nat) (front : List Token) (htokens : tokens = front ++ ts) (names : List (List Char))
    (heard : Heard) (hready : heard = .nothing ∨ EndsLine ts) :
    ∃ read, ts = read ++ rest ∧ Outlined tokens offset read items ⟨names, heard⟩ := by
  induction h generalizing front names heard with
  | none ts => exact ⟨[], rfl, heard, .nil _⟩
  | @newline t ts rest items kind others ih =>
    have hsub : (t :: ts).Sublist tokens := htokens ▸ List.sublist_append_right front _
    by_cases hstop : t.span.stop ≤ offset
    · obtain ⟨read, rfl, hread⟩ := ih (front ++ [t]) (by simp [htokens]) names .nothing (.inl rfl)
      exact ⟨t :: read, rfl, outlined_newline kind hstop hread⟩
    · have hbefore := (hs.sublist hsub).before
      have hbeyond : ∀ u ∈ ts, offset ≤ u.span.start := by
        intro u hu
        have hbehind := hbefore u hu
        omega
      obtain ⟨read, rfl, heard', hrun⟩ := others.outlined_of_beyond hs
        ((List.sublist_cons_self t ts).trans hsub) hbeyond ⟨names, heard⟩
      refine ⟨t :: read, rfl, heard', ?_⟩
      rw [tokensUpTo_cons_of_lt (Nat.lt_of_not_le hstop)]
      exact hrun
  | @assignment name sign ts next rest value items nameKind signKind expr line others ih =>
    obtain ⟨inValue, rfl, hinValue⟩ := expr.inValue
    have hplain : ∀ t ∈ name :: sign :: inValue, InValue t.kind := by
      simp only [List.forall_mem_cons, nameKind, signKind]
      exact ⟨by decide, by decide, hinValue⟩
    obtain ⟨heard', hvalue⟩ := Outline.run_inValue names heard
      (tokensUpTo offset (name :: sign :: inValue)) fun t ht => hplain t (List.mem_of_mem_filter ht)
    obtain ⟨read, rfl, hread⟩ := ih (front ++ name :: sign :: inValue) (by simp [htokens])
      names heard' (.inr line)
    exact ⟨name :: sign :: inValue ++ read, by simp, outlined_assignment hvalue hread⟩
  | @block name brace close ts next rest inner items nameKind braceKind body closeKind others
      ihInner ih =>
    obtain rfl : heard = .nothing := by
      refine hready.resolve_right fun hline => ?_
      rw [EndsLine, Token.current_cons, nameKind] at hline
      simp at hline
    have hlies : BlockLies tokens name brace close ts next rest inner items :=
      ⟨nameKind, braceKind, body, closeKind, others, front, htokens⟩
    by_cases hopen : brace.span.stop ≤ offset
    · obtain ⟨readInner, hreadInner, hin⟩ := ihInner (front ++ [name, brace]) (by simp [htokens])
        (name.text.toList :: names) .nothing (.inl rfl)
      by_cases hclosed : close.span.stop ≤ offset
      · obtain ⟨read, hread, hout⟩ := ih (front ++ name :: brace :: readInner ++ [close])
          (by simp [htokens, hreadInner]) names .nothing (.inl rfl)
        exact ⟨name :: brace :: readInner ++ close :: read, by simp [hreadInner, hread],
          hlies.outlined_behind hs hopen hclosed hin hout⟩
      · obtain ⟨read, hread, hout⟩ :=
          hlies.outlined_inside hs hopen (Nat.lt_of_not_le hclosed) hreadInner hin
        exact ⟨name :: brace :: readInner ++ close :: read, by simp [hreadInner, hread], hout⟩
    · exact hlies.outlined_before hs (Nat.lt_of_not_le hopen)

end

end ColorTheme

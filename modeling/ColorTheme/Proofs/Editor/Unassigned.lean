import ColorTheme.Editor.Completion
import ColorTheme.Proofs.Account.First
import ColorTheme.Proofs.Editor.AssignedNames
import ColorTheme.Proofs.Theme.Strict

/-!
# What is offered in the block of terminal colors

On a blank line of the `ansi` block an editor is offered the names that the block does not assign.
The names are found in the text around the cursor, line by line, and the block by counting braces.

* `Grammar.IsBody.exists_block` : a block of a document, at its place among the tokens.
* `Block.LiesIn` : a block of a source, at its place in the text.  `Block.exists_liesIn` finds it in
  a source without comments.
* `openBlocks_behind_brace` : between its braces the scan has opened the block, and nothing else.
* `Analysis.isColored_of_ansi` : without errors, the block has nothing but attributes with colors.
* `Analysis.suggestions_in_ansi` : what is offered are the names that are not assigned, in front of
  the cursor or behind it.
-/

set_option autoImplicit false

namespace ColorTheme

/-! ## A block among the tokens -/

section

variable {cs : List Char} {last : Span} {tokens ts rest next : List Token}
  {name brace close : Token} {inner before behind : Body} {offset : Nat}

theorem BlockLies.prepend (h : BlockLies tokens name brace close ts next rest inner behind)
    (front : List Token) :
    BlockLies (front ++ tokens) name brace close ts next rest inner behind := by
  obtain ⟨others, rfl⟩ := h.among
  exact { h with among := ⟨front ++ others, (List.append_assoc ..).symm⟩ }

/-- The block is the one of these tokens. -/
def Block.IsOf (block : Block) (name close : Token) : Prop :=
  block = ⟨.ofToken name, block.body, name.span.merge close.span⟩

/-- **Each block of a body has its place among the tokens**, behind those of the items in front of
it.  The induction is on the body. -/
theorem Grammar.IsBody.exists_block {items : Body} {block : Block} (h : IsBody tokens items rest)
    (hblock : block ∈ Body.blocks items) :
    ∃ name brace close ts next before behind, block.IsOf name close ∧
      items = before ++ .block block.kind block.body block.span :: behind ∧
      IsBody tokens before (name :: brace :: ts) ∧
      BlockLies tokens name brace close ts next rest block.body behind := by
  induction h with
  | none ts => cases hblock
  | @newline t ts rest items kind others ih =>
    obtain ⟨name, brace, close, us, next, before, behind, his, hitems, hbefore, hlies⟩ := ih hblock
    exact ⟨name, brace, close, us, next, before, behind, his, hitems, .newline kind hbefore,
      hlies.prepend [t]⟩
  | @assignment first sign ts next' rest value items nameKind signKind expr line others ih =>
    obtain ⟨name, brace, close, us, next, before, behind, his, rfl, hbefore, hlies⟩ := ih hblock
    obtain ⟨read, rfl, -⟩ := expr.leadsTo
    exact ⟨name, brace, close, us, next, _ :: before, behind, his, rfl,
      .assignment nameKind signKind expr line hbefore, hlies.prepend (first :: sign :: read)⟩
  | @block first opening closing ts next' rest inner items nameKind braceKind body closeKind others
      ihInner ih =>
    rcases List.mem_cons.1 hblock with rfl | hblock
    · exact ⟨first, opening, closing, ts, next', [], items, rfl, rfl, .none _,
        nameKind, braceKind, body, closeKind, others, [], rfl⟩
    · obtain ⟨name, brace, close, us, next, before, behind, his, rfl, hbefore, hlies⟩ := ih hblock
      obtain ⟨read, rfl, -⟩ := body.leadsTo
      have hlies := hlies.prepend (first :: opening :: read ++ [closing])
      rw [List.append_assoc, List.singleton_append] at hlies
      exact ⟨name, brace, close, us, next, _ :: before, behind, his, rfl,
        .block nameKind braceKind body closeKind hbefore, hlies⟩

/-- The offsets that a block holds are those behind its opening brace, up to its closing brace. -/
theorem BlockLies.holds_block_iff {block : Block}
    (h : BlockLies tokens name brace close ts next rest block.body behind)
    (hs : Spaced cs last tokens) (his : block.IsOf name close) :
    block.holds tokens offset = true ↔ brace.span.stop ≤ offset ∧ offset < close.span.stop := by
  have hspaced := hs.sublist h.sublist
  have hname := (hspaced.span_fits List.mem_cons_self).ordered
  have hclose : name.span.stop ≤ close.span.start :=
    hspaced.before close (List.mem_cons_of_mem _ (h.body.leadsTo.subset close List.mem_cons_self))
  constructor
  · intro hholds
    have hstart : block.span.start = name.span.start := by
      rw [his]
      exact Nat.min_eq_left (Nat.le_trans hname hclose)
    have hopened := (Block.holds_iff.1 hholds).1
    rw [hstart, h.opened_iff hs] at hopened
    rw [his, h.holds_iff hs hopened] at hholds
    exact ⟨hopened, hholds⟩
  · rintro ⟨hopened, hbefore⟩
    rw [his]
    exact (h.holds_iff hs hopened).2 hbefore

theorem blocksAround_append (a b : Body) :
    blocksAround tokens offset (a ++ b) =
      blocksAround tokens offset a ++ blocksAround tokens offset b := by
  unfold blocksAround
  rw [spreadAll_append, List.filterMap_append, List.filter_append]

/-- Around the opening brace of a block there is no block but this one. -/
theorem BlockLies.blocksAround_brace
    (h : BlockLies tokens name brace close ts next rest inner behind) (hs : Spaced cs last tokens)
    (hbefore : Grammar.IsBody tokens before (name :: brace :: ts))
    (hstart : brace.span.start ≤ offset) (hstop : offset ≤ brace.span.stop) (kind : Ident)
    (span : Span) :
    blocksAround tokens offset (before ++ .block kind inner span :: behind) =
      [⟨kind, inner, span⟩].filter (·.holds tokens offset) := by
  have hspaced := hs.sublist h.sublist
  have hname : name.span.start ≤ offset := by
    have hordered := (hspaced.span_fits List.mem_cons_self).ordered
    have hleft := hspaced.before brace List.mem_cons_self
    omega
  have hbeyond : ∀ t ∈ ts, offset ≤ t.span.start := by
    intro t ht
    have hright := (hspaced.drop 1).before t ht
    omega
  have hts : ts.Sublist tokens := .trans (List.sublist_append_right [name, brace] ts) h.sublist
  obtain ⟨read, hread, -⟩ := h.body.leadsTo
  have hnext : next.Sublist ts := by
    rw [hread]
    exact .trans (List.sublist_cons_self close next) (List.sublist_append_right read _)
  have hnone : blocksAround tokens offset before = [] :=
    hbefore.blocksAround_eq_nil hs (List.Sublist.refl tokens) (.inr ⟨name, List.mem_cons_self, hname⟩)
  have hinner : blocksAround tokens offset inner = [] :=
    h.body.blocksAround_eq_nil hs hts (.inl hbeyond)
  have hbehind : blocksAround tokens offset behind = [] :=
    h.others.blocksAround_eq_nil hs (hnext.trans hts)
      (.inl fun t ht => hbeyond t (hnext.subset ht))
  rw [blocksAround_append, hnone, blocksAround_block, hinner, hbehind, List.append_nil,
    List.append_nil, List.nil_append]

end

/-! ## Between pieces -/

section

variable {ps : List Piece} {offset n : Nat} {t : Token}

theorem strictlyInside_zero (hne : ∀ p ∈ ps, p.text ≠ []) : strictlyInside ps 0 = false := by
  cases ps with
  | nil => rfl
  | cons p ps =>
    have hpos := byteLength_pos (hne p List.mem_cons_self)
    rw [strictlyInside, if_pos hpos]
    rfl

/-- A token begins and ends between pieces. -/
theorem strictlyInside_of_mem_locate (hne : ∀ p ∈ ps, p.text ≠ []) (h : t ∈ locate offset ps)
    (hspan : t.span.start ≤ t.span.stop)
    (hn : offset + n = t.span.start ∨ offset + n = t.span.stop) : strictlyInside ps n = false := by
  induction ps generalizing offset n with
  | nil => cases h
  | cons p ps ih =>
    rw [List.forall_mem_cons] at hne
    have hpos := byteLength_pos hne.1
    have hbehind (h : t ∈ locate (offset + byteLength p.text) ps) :
        strictlyInside (p :: ps) n = false := by
      have hstart := (start_locate hne.2 t h).1
      rw [strictlyInside, if_neg (by omega)]
      exact ih hne.2 h (by omega)
    rw [locate] at h
    split at h
    · rcases List.mem_cons.1 h with rfl | h
      · dsimp only at hn
        rcases hn with hn | hn
        · obtain rfl : n = 0 := by omega
          exact strictlyInside_zero (List.forall_mem_cons.2 hne)
        · obtain rfl : n = byteLength p.text := by omega
          rw [strictlyInside, if_neg (Nat.lt_irrefl _), Nat.sub_self]
          exact strictlyInside_zero hne.2
      · exact hbehind h
    · exact hbehind h

theorem strictlyInside_of_mem_tokenize {source : String} (h : t ∈ tokenize source)
    (hkind : t.kind ≠ .endOfFile) (hn : n = t.span.start ∨ n = t.span.stop) :
    strictlyInside (pieces source.toList) n = false := by
  have hspan := ((spaced_tokenize source).span_fits h).ordered
  rw [tokenize, List.mem_append, List.mem_singleton] at h
  rcases h with h | rfl
  · apply strictlyInside_of_mem_locate (fun p hp => text_ne_nil_of_mem_pieces hp) h hspan
    simpa using hn
  · exact absurd rfl hkind

/-- What stands between tokens without comments is passed over. -/
theorem passesAll_of_commentless {source : String} (h : Commentless source) :
    passesAll (pieces source.toList) = true := by
  unfold Commentless at h
  generalize pieces source.toList = ps at h ⊢
  induction ps with
  | nil => rfl
  | cons p ps ih =>
    rw [List.forall_mem_cons] at h
    rw [passesAll, ih h.2, Bool.and_true, Bool.or_eq_true]
    cases hkind : p.kind with
    | some kind => exact .inl rfl
    | none =>
      right
      have hgap := h.1 hkind
      generalize p.text = text at hgap
      unfold passes
      split
      · cases hgap
      · cases hgap
      · rfl

end

/-! ## A block in the text -/

/-- The block stands in the source behind `front`, with its text between its braces. -/
structure Block.LiesIn (source : String) (block : Block) (front text behind : List Char) : Prop where
  placed : source.toList = front ++ '\x7b' :: (text ++ '\x7d' :: behind)
  /-- Its text is read as its tree is. -/
  gives : GivesValues block.body.assigned text
  /-- The offsets between its braces. -/
  between : ∀ offset, block.holds (tokenize source) offset = true ↔
    byteLength front + 1 ≤ offset ∧ offset ≤ byteLength front + 1 + byteLength text
  /-- In front of its opening brace no block is open. -/
  outside : (openBlocks front).map OpenBlock.name = []
  /-- Behind it, this one is. -/
  inside : (openBlocks (front ++ ['\x7b'])).map OpenBlock.name = [block.kind.name.toList]

section

variable {source : String} {block : Block}

/-- The scan has opened the blocks around a token. -/
theorem openBlocks_at_token {before after : List Char} {t : Token}
    (hflawless : (Body.read source).flaws = []) (hcomments : Commentless source)
    (hsource : source.toList = before ++ after) (ht : t ∈ tokenize source)
    (hkind : t.kind ≠ .endOfFile)
    (hat : byteLength before = t.span.start ∨ byteLength before = t.span.stop) :
    ((openBlocks before).map OpenBlock.name).reverse =
      (blocksAround (tokenize source) (byteLength before) (Body.read source).items).map
        fun b => b.kind.name.toList :=
  openBlocks_eq_blocksAround hflawless (passesAll_of_commentless hcomments) hsource
    (strictlyInside_of_mem_tokenize ht hkind hat)

/-- In a source without comments, the braces of a block of attributes with colors stand around its
text. -/
theorem BlockLies.exists_text {name brace close : Token} {ts next rest : List Token}
    {inner items : Body}
    (h : BlockLies (tokenize source) name brace close ts next rest inner items)
    (hcomments : Commentless source) (hcolored : ∀ item ∈ inner, item.IsColored) :
    ∃ front text behind, source.toList = front ++ '\x7b' :: (text ++ '\x7d' :: behind) ∧
      brace.span = ⟨byteLength front, byteLength front + 1⟩ ∧
      close.span.stop = byteLength front + 1 + byteLength text + 1 ∧
      GivesValues inner.assigned text := by
  obtain ⟨others, hothers⟩ := h.among
  have hwritten := written_tokenize hcomments
  rw [hothers] at hwritten
  obtain ⟨head, rest, hsource, hwritten⟩ := hwritten.exists_from
  obtain ⟨gap, rest, rfl, -, -, -, hwritten⟩ := hwritten.exists_rest (by rw [h.nameKind]; decide)
  obtain ⟨blank, rest, rfl, -, hbrace, hspan, hwritten⟩ :=
    hwritten.exists_rest (by rw [h.braceKind]; decide)
  rw [h.braceKind] at hbrace
  generalize brace.text.toList = sign at hbrace hspan hwritten hsource
  cases hbrace
  obtain ⟨text, ⟨behind, rfl, hstop, hgives⟩, -⟩ :=
    h.body.assigned rfl h.closeKind hcolored hwritten
  have hsign : byteLength ['\x7b'] = 1 := rfl
  refine ⟨head ++ (gap ++ name.text.toList ++ blank), text, behind, ?_, ?_, ?_, hgives⟩
  · rw [hsource]
    simp
  · simp only [hspan, byteLength_append, hsign, Span.mk.injEq]
    omega
  · simp only [hstop, byteLength_append, hsign]
    omega

/-- **A block of attributes with colors is found in the text**, if the source follows the grammar
and has no comments. -/
theorem Block.exists_liesIn (hflawless : (Body.read source).flaws = [])
    (hcomments : Commentless source) (hblock : block ∈ Body.blocks (Body.read source).items)
    (hcolored : ∀ item ∈ block.body, item.IsColored) :
    ∃ front text behind, block.LiesIn source front text behind := by
  have hs := spaced_tokenize source
  obtain ⟨stop, -, hbody⟩ := Grammar.isDocument_of_flawless hflawless
  obtain ⟨name, brace, close, ts, next, before, after, his, hitems, hbefore, hlies⟩ :=
    hbody.exists_block hblock
  obtain ⟨front, text, behind, hsource, hspan, hclose, hgives⟩ :=
    hlies.exists_text hcomments hcolored
  have hstart : brace.span.start = byteLength front := congrArg Span.start hspan
  have hstop : brace.span.stop = byteLength front + 1 := congrArg Span.stop hspan
  have hbetween (offset : Nat) : block.holds (tokenize source) offset = true ↔
      byteLength front + 1 ≤ offset ∧ offset ≤ byteLength front + 1 + byteLength text := by
    rw [hlies.holds_block_iff hs his, hclose, hstop]
    omega
  -- at the brace the scan has opened this block if it holds the offset, and no others
  have hnames {read after : List Char} (hcut : source.toList = read ++ after)
      (hat : byteLength read = brace.span.start ∨ byteLength read = brace.span.stop) :
      ((openBlocks read).map OpenBlock.name).reverse =
        ([block].filter (·.holds (tokenize source) (byteLength read))).map
          fun b => b.kind.name.toList := by
    have hbrace : brace ∈ tokenize source := hlies.sublist.subset (by simp)
    have hkind : brace.kind ≠ .endOfFile := by
      rw [hlies.braceKind]
      decide
    rw [openBlocks_at_token hflawless hcomments hcut hbrace hkind hat, hitems,
      hlies.blocksAround_brace hs hbefore (by omega) (by omega)]
  refine ⟨front, text, behind, hsource, hgives, hbetween, ?_, ?_⟩
  · have hnone : ¬ block.holds (tokenize source) (byteLength front) = true := by
      rw [hbetween]
      omega
    have hfront := hnames hsource (.inl hstart.symm)
    rw [List.filter_cons_of_neg hnone] at hfront
    exact List.reverse_eq_nil_iff.1 hfront
  · have hlength : byteLength (front ++ ['\x7b']) = byteLength front + 1 := byteLength_append _ _
    have hone : block.holds (tokenize source) (byteLength (front ++ ['\x7b'])) = true := by
      rw [hbetween, hlength]
      omega
    have hcut : source.toList = (front ++ ['\x7b']) ++ (text ++ '\x7d' :: behind) := by
      rw [hsource]
      simp
    have hinside := hnames hcut (.inr (hlength.trans hstop.symm))
    rw [List.filter_cons_of_pos hone] at hinside
    exact List.reverse_inj.1 hinside

end

/-! ## The scan between its braces -/

namespace Scan

variable {s : Scan} {m : ScanMode} {index : Nat} {text behind : List Char}

theorem Comes.exists_append {rest : List Char} {s₁ : Scan} {m₁ : ScanMode}
    (hcomes : s.Comes m index text (rest ++ behind) s₁ m₁)
    (h : ∃ s' m', s₁.Comes m₁ (index + text.length) rest behind s' m') :
    ∃ s' m', s.Comes m index (text ++ rest) behind s' m' := by
  obtain ⟨s', m', hrest⟩ := h
  exact ⟨s', m', hcomes.append hrest⟩

/-- The scan comes through any text, if no line comment begins with its last character. -/
theorem exists_comes (s : Scan) (m : ScanMode) (index : Nat) (text : List Char)
    (hbehind : behind.head? ≠ some '/') : ∃ s' m', s.Comes m index text behind s' m' := by
  fun_induction Scan.run s m index text with
  | case1 s m index => exact ⟨s, m, .nil s m behind⟩
  | case2 s index c cs ih => exact (comes_commentChar s index c (cs ++ behind)).exists_append ih
  | case3 s escaped index c cs hescape ih =>
    have hc := comes_stringChar s index escaped c (cs ++ behind)
    rw [if_pos hescape] at hc
    exact hc.exists_append ih
  | case4 s escaped index c cs hescape hend ih =>
    have hc := comes_stringChar s index escaped c (cs ++ behind)
    rw [if_neg hescape, if_pos hend] at hc
    exact hc.exists_append ih
  | case5 s escaped index c cs hescape hinside ih =>
    have hc := comes_stringChar s index escaped c (cs ++ behind)
    rw [if_neg hescape, if_neg hinside] at hc
    exact hc.exists_append ih
  | case6 s index cs ih => exact (comes_slashes s (cs ++ behind)).exists_append ih
  | case7 s index cs _ ih => exact (comes_quote s (cs ++ behind)).exists_append ih
  | case8 s index cs _ _ ih => exact (comes_openBrace s index (cs ++ behind)).exists_append ih
  | case9 s index cs _ _ _ ih => exact (comes_closeBrace s index (cs ++ behind)).exists_append ih
  | case10 s index c cs hslash hquote hopen hclose ih =>
    have hnext : c = '/' → (cs ++ behind).head? ≠ some '/' := by
      intro hc hhead
      cases cs with
      | nil => exact hbehind hhead
      | cons d ds => exact hslash ds hc (by simpa using hhead)
    exact (comes_char s (by simp [hopen, hclose, hquote]) hnext).exists_append ih

/-- A brace that is no code opens nothing. -/
theorem run_brace_stack (hm : m ≠ .code) : (s.run m index ['\x7b']).stack = s.stack := by
  cases m with
  | code => exact absurd rfl hm
  | comment => exact congrArg stack (comes_commentChar s index '\x7b' [] [] List.nil_prefix)
  | string escaped =>
    have hcomes := comes_stringChar s index escaped '\x7b' [] [] List.nil_prefix
    rw [List.append_nil] at hcomes
    rw [hcomes, Scan.run]

end Scan

/-- **Behind a brace that opens the only block, it is open as long as there are no other braces**,
and its text begins right behind the brace. -/
theorem openBlocks_behind_brace {front inside word : List Char}
    (hfront : (openBlocks front).map OpenBlock.name = [])
    (hbrace : (openBlocks (front ++ ['\x7b'])).map OpenBlock.name = [word])
    (hinside : ∀ c ∈ inside, c ∉ ['\x7b', '\x7d']) :
    openBlocks (front ++ '\x7b' :: inside) = [⟨word, front.length + 1⟩] := by
  obtain ⟨s, m, hcomes⟩ := Scan.exists_comes ⟨[], [], []⟩ .code 0 front
    (show ('\x7b' :: inside).head? ≠ some '/' by simp)
  have hrun (tail : List Char) (htail : tail <+: '\x7b' :: inside) :
      openBlocks (front ++ tail) = (s.run m front.length tail).stack := by
    unfold openBlocks
    rw [hcomes tail htail, Nat.zero_add]
  have hempty : s.stack = [] := by
    have hnone := hrun [] List.nil_prefix
    rw [List.append_nil] at hnone
    rw [hnone, Scan.run] at hfront
    exact List.map_eq_nil_iff.1 hfront
  have hone : (s.run m front.length ['\x7b']).stack.map OpenBlock.name = [word] := by
    rw [← hrun ['\x7b'] ⟨inside, rfl⟩, hbrace]
  obtain rfl : m = .code := by
    by_contra hm
    rw [Scan.run_brace_stack hm, hempty] at hone
    cases hone
  have hopened (tail : List Char) : s.run .code front.length ('\x7b' :: tail) =
      (s.openBlock (front.length + 1)).run .code (front.length + 1) tail :=
    s.comes_openBrace front.length tail tail (List.prefix_refl tail)
  have hstack : (s.openBlock (front.length + 1)).stack = [⟨word, front.length + 1⟩] := by
    rw [hopened, Scan.run, Scan.openBlock, hempty] at hone
    rw [Scan.openBlock, hempty]
    simpa using hone
  have hunbraced : ∀ c ∈ inside, c ≠ '\x7b' ∧ c ≠ '\x7d' := by simpa using hinside
  obtain ⟨s', m', hkept, -, hkeeps⟩ := (s.openBlock (front.length + 1)).keeps_of_unbraced .code
    (front.length + 1) hunbraced (.inl rfl) (.inl rfl)
  have hend := hkeeps [] List.nil_prefix
  rw [List.append_nil, Scan.run.eq_1] at hend
  rw [hrun _ (List.prefix_refl _), hopened, hend, hkept, hstack]

/-! ## Blank lines -/

section

variable {before after : List Char} {c : Char}

theorem isPathChar_of_isBlank (h : isBlank c = true) : isPathChar c = false := by
  rw [isPathChar, Bool.or_eq_false_iff]
  constructor
  · by_contra hword
    rw [isBlank_of_isWordChar (eq_true_of_ne_false hword)] at h
    cases h
  · rw [beq_eq_false_iff_ne]
    rintro rfl
    revert h
    decide

/-- No path ends in a blank. -/
theorem palettePath?_blank (h : isAllBlank before = true) : palettePath? before = none := by
  have hnone : before.reverse.takeWhile isPathChar = [] := by
    cases hreverse : before.reverse with
    | nil => rfl
    | cons c rest =>
      have hc : c ∈ before := List.mem_reverse.1 (hreverse ▸ List.mem_cons_self)
      have hpath := isPathChar_of_isBlank (List.all_eq_true.1 h c hc)
      exact List.takeWhile_cons_of_neg (by rw [hpath]; exact Bool.false_ne_true)
  unfold palettePath?
  dsimp only
  rw [hnone]
  rfl

theorem isEmptyValue_blank (h : isAllBlank before = true) : isEmptyValue before after = false := by
  have hnone : trimEnd isBlank before = [] := by
    unfold trimEnd
    rw [List.reverse_eq_nil_iff, List.dropWhile_eq_nil_iff]
    intro c hc
    exact List.all_eq_true.1 h c (List.mem_reverse.1 hc)
  unfold isEmptyValue
  rw [hnone]
  rfl

end

/-! ## What is offered -/

/-- The position is on a line with nothing but blanks before and behind it, and between the braces
of the block. -/
structure Document.StandsIn (d : Document) (p : Position) (block : Block) : Prop where
  blank : ∃ line, d.line? p.line = some line ∧ isAllBlank (line.take p.character) = true ∧
    isAllBlank (line.drop p.character) = true
  between : ∃ offset, d.offset? p = some offset ∧ block.holds (tokenize d.text) offset = true

/-- The text up to an offset between the braces of a block is the text in front of it, its opening
brace, and a part of its text. -/
theorem Block.LiesIn.exists_part {source : String} {block : Block} {front text behind : List Char}
    (h : block.LiesIn source front text behind) {before after : List Char}
    (hsource : source.toList = before ++ after)
    (hholds : block.holds (tokenize source) (byteLength before) = true) :
    ∃ part, before = front ++ '\x7b' :: part ∧ ∀ c ∈ part, c ∉ ['\x7b', '\x7d'] := by
  obtain ⟨hlow, hhigh⟩ := (h.between _).1 hholds
  have hsign : byteLength ['\x7b'] = 1 := rfl
  have hcut : (front ++ ['\x7b']) ++ (text ++ '\x7d' :: behind) = before ++ after := by
    rw [← hsource, h.placed]
    simp
  obtain ⟨part, rfl, hrest⟩ := exists_append_of_byteLength_le hcut
    (by rw [byteLength_append, hsign]; exact hlow)
  have hlength : byteLength part ≤ byteLength text := by
    simp only [byteLength_append, hsign] at hhigh
    omega
  obtain ⟨others, rfl, -⟩ := exists_append_of_byteLength_le hrest.symm hlength
  refine ⟨part, by simp, ?_⟩
  intro c hc
  exact h.gives.unbraced c (List.mem_append_left others hc)

theorem labels_remaining (kind : SuggestionKind) (names : List String)
    (assigned : List (List Char)) : (remaining kind names assigned).map Suggestion.label =
      names.filter fun name => !assigned.contains name.toList := by
  unfold remaining
  rw [List.map_map]
  exact List.map_id _

/-- The names of the tree, as texts. -/
theorem Block.unassigned_eq (block : Block) (names : List String) :
    (names.filter fun name => !block.body.assigned.contains name.toList) =
      block.unassigned names := by
  unfold Block.unassigned
  apply List.filter_congr
  intro name _
  rw [decide_not, Bool.not_inj_iff, Bool.eq_iff_iff, List.contains_iff_mem, decide_eq_true_iff]
  unfold Body.assigned Block.Assigns
  simp only [List.mem_map, String.toList_inj]

namespace Analysis

variable {source : String} {block : Block} {d : Document} {p : Position}

/-- **Without errors, the block of terminal colors has nothing but attributes that have colors.** -/
theorem isColored_of_ansi (herrors : (ofSource .standard source).hasErrors = false)
    (hblock : block ∈ Body.blocks (Body.read source).items) (hname : block.kind.name = ansiName) :
    ∀ item ∈ block.body, item.IsColored := by
  intro item hitem
  have hsettled := Theme.settled_of_hasErrors herrors
  have haccepted := Theme.accepted_of_ofAnalysis hsettled
  have hwithin : Within (Body.read source).items [block.kind.name] item :=
    .inside (.top (Body.mem_blocks.1 hblock)) hitem
  rw [hname] at hwithin
  rcases found_of_within (Theme.regular_of_ofAnalysis hsettled) haccepted hwithin with
    ⟨hnil, -⟩ | ⟨f, hf, henclosing, rfl⟩
  · cases hnil
  · obtain ⟨c, hc, hrule, v, hv, rfl⟩ :=
      exists_chapter_of_head hf (by rw [henclosing]; rfl) (show ansiName ≠ metaName by decide)
    have hflat : ∀ rule ∈ BlockTable.standard, rule.name = ansiName →
        rule.nesting = false ∧ rule.styled = false := by
      decide
    obtain ⟨hnesting, hplain⟩ := hflat c.rule (rule_mem_of_mem_chapters hc) hrule
    have hv' := haccepted v.finding hf
    cases hitem : v.item with
    | assignment a =>
      obtain ⟨color, hcolor⟩ := Chapter.resolvesTo_of_accepted hplain hv hv' hitem
      exact ⟨a, color, (ofSource .standard source).scopes, hitem,
        resolve_finished_of_proper BlockTable.proper_standard (mem_visits.2 ⟨c, hc, hv⟩) hcolor⟩
    | block kind inner span =>
      obtain ⟨progress, hjudged⟩ := c.tour.exists_judged hv
      rw [hitem] at hjudged
      have hopened := hjudged.opened_of_symbol? hv'
      rw [hopened] at hjudged
      obtain ⟨-, hnested, -⟩ := hjudged.of_opened
      rw [show c.frame.rule.nesting = false from hnesting] at hnested
      cases hnested

/-- **On a blank line of the block of terminal colors, exactly the names are offered that the block
does not assign**, in front of the position or behind it. -/
theorem suggestions_in_ansi (hflawless : (Body.read d.text).flaws = [])
    (hcomments : Commentless d.text) (herrors : (ofSource .standard d.text).hasErrors = false)
    (hblock : block ∈ Body.blocks (Body.read d.text).items) (hname : block.kind.name = ansiName)
    (hp : d.StandsIn p block) :
    (suggestions .standard d (ofSource .standard d.text) p).map Suggestion.label =
      block.unassigned ansiNames := by
  obtain ⟨⟨line, hline, hbefore, hafter⟩, ⟨offset, hoffset, hholds⟩⟩ := hp
  obtain ⟨index, hindex, rfl⟩ := Option.map_eq_some_iff.1 hoffset
  obtain ⟨front, text, behind, hlies⟩ :=
    Block.exists_liesIn hflawless hcomments hblock (isColored_of_ansi herrors hblock hname)
  have hchars : d.text.toList = d.chars.take index ++ d.chars.drop index :=
    (List.take_append_drop index d.chars).symm
  obtain ⟨part, hpart, hunbraced⟩ := hlies.exists_part hchars hholds
  have hopen : openBlocks (d.chars.take index) = [⟨ansiName.toList, front.length + 1⟩] := by
    rw [hpart, openBlocks_behind_brace hlies.outside hlies.inside hunbraced, hname]
  have hrest : d.chars.drop (front.length + 1) = text ++ '\x7d' :: behind := by
    unfold Document.chars
    rw [hlies.placed]
    simp
  have hassigned : assignedNames (d.chars.drop (front.length + 1)) = block.body.assigned := by
    rw [hrest, assignedNames_closed hlies.gives.unbraced, hlies.gives.names]
  unfold suggestions
  rw [hline, hindex]
  dsimp only
  rw [palettePath?_blank hbefore]
  dsimp only
  rw [if_neg (by rw [isEmptyValue_blank hbefore]; exact Bool.false_ne_true), hopen]
  unfold blockSuggestions
  dsimp only
  rw [if_neg (by decide), if_pos rfl, hassigned, labels_remaining, Block.unassigned_eq]

/-- A document with a block that begins and ends on lines of attributes, and a string with braces
and signs. -/
def tightSource : String :=
  "meta \x7b\n  name = \"a \x7b b = c // \x7d\"\n\x7d\n" ++
  "palette \x7b\n  sky = #112233\n\x7d\n" ++
  "ansi \x7b black = #000000\n  \n  red = palette.sky\n" ++
  "  white = palette.sky \x7d\n"

theorem suggestions_in_ansi_tightSource : ∃ block ∈ Body.blocks (Body.read tightSource).items,
    Document.StandsIn ⟨0, tightSource⟩ ⟨7, 1⟩ block ∧
      (suggestions .standard ⟨0, tightSource⟩ (ofSource .standard tightSource) ⟨7, 1⟩).map
        Suggestion.label = ansiNames.filter (· ∉ ["black", "red", "white"]) := by
  have h : (∃ block ∈ Body.blocks (Body.read tightSource).items, block.kind.name = ansiName ∧
      block.holds (tokenize tightSource) 87 = true ∧
        block.unassigned ansiNames = ansiNames.filter (· ∉ ["black", "red", "white"])) ∧
      (Body.read tightSource).flaws = [] ∧ Commentless tightSource ∧
      (ofSource .standard tightSource).hasErrors = false ∧
      Document.line? ⟨0, tightSource⟩ 7 = some [' ', ' '] ∧
      Document.offset? ⟨0, tightSource⟩ ⟨7, 1⟩ = some 87 := by
    decide +kernel
  obtain ⟨⟨block, hblock, hname, hholds, hnames⟩, hflawless, hcomments, herrors, hline, hoffset⟩ := h
  have hstands : Document.StandsIn ⟨0, tightSource⟩ ⟨7, 1⟩ block :=
    ⟨⟨_, hline, by decide, by decide⟩, 87, hoffset, hholds⟩
  have hlabels := suggestions_in_ansi (d := ⟨0, tightSource⟩) hflawless hcomments herrors hblock
    hname hstands
  exact ⟨block, hblock, hstands, hlabels.trans hnames⟩

end Analysis

end ColorTheme

import ColorTheme.Proofs.Grammar.Document
import ColorTheme.Proofs.Item.SourceOrder
import ColorTheme.Proofs.Token.Tiling

/-!
# Where the parts of a document stand

* `Expr.Placed`, `Item.Placed` : the spans in an expression or an item lie in the text and cut no
  character; each covers the spans of its parts, which stand one behind the other; and a name is
  the text under its span.
* `spaced_tokenize` : what of this holds of the tokens of a source.
* `placed_of_isExpr`, `arranged_readBody` : the reader makes expressions and items of this kind,
  from whatever tokens, and a block that is never closed is no exception.
* `Body.placed_of_mem` : so all items of a source are.
-/

set_option autoImplicit false

namespace ColorTheme

/-- The span lies in the text and cuts no character. -/
structure Span.Fits (cs : List Char) (s : Span) : Prop where
  ordered : s.start ≤ s.stop
  inside : s.stop ≤ byteLength cs
  start : IsBoundary cs s.start
  stop : IsBoundary cs s.stop

/-- The span reaches at least as far as `inner` at both ends. -/
def Span.Covers (s inner : Span) : Prop := s.start ≤ inner.start ∧ inner.stop ≤ s.stop

/-- The span ends before `t` begins. -/
def Span.Before (s t : Span) : Prop := s.stop ≤ t.start

/-- The name is the text under its span, and that is an identifier. -/
structure Ident.Placed (cs : List Char) (i : Ident) : Prop where
  fits : i.span.Fits cs
  nonempty : i.span.start < i.span.stop
  text : i.span.slice? cs = some i.name.toList
  word : Lexeme .ident i.name.toList

/-- All spans in the expression are where its parts are. -/
inductive Expr.Placed (cs : List Char) : Expr → Prop
  | quoted {text : String} {span : Span} (fits : span.Fits cs) : Placed cs (.quoted text span)
  | hex {text : String} {span : Span} (fits : span.Fits cs) : Placed cs (.hex text span)
  | number {value : Float} {span : Span} (fits : span.Fits cs) : Placed cs (.number value span)
  | truth {value : Bool} {span : Span} (fits : span.Fits cs) : Placed cs (.truth value span)
  | path {root : Ident} {rest : List Ident} {span : Span} (fits : span.Fits cs)
      (names : ∀ i ∈ root :: rest, i.Placed cs) (covers : ∀ i ∈ root :: rest, span.Covers i.span)
      (apart : (root :: rest).Pairwise fun i j => i.span.Before j.span) :
      Placed cs (.path root rest span)
  | call {name : Ident} {args : List Expr} {span : Span} (fits : span.Fits cs)
      (named : name.Placed cs) (placed : ∀ e ∈ args, Expr.Placed cs e)
      (coversName : span.Covers name.span) (coversArgs : ∀ e ∈ args, span.Covers e.span)
      (behind : ∀ e ∈ args, name.span.Before e.span)
      (apart : args.Pairwise fun e f => e.span.Before f.span) : Placed cs (.call name args span)

/-- All spans of the item are where its parts are; of a block, its items are parts. -/
inductive Item.Placed (cs : List Char) : Item → Prop
  | assignment {a : Attribute} (fits : a.span.Fits cs) (named : a.name.Placed cs)
      (value : a.value.Placed cs) (coversName : a.span.Covers a.name.span)
      (coversValue : a.span.Covers a.value.span) (behind : a.name.span.Before a.value.span) :
      Placed cs (.assignment a)
  | block {kind : Ident} {body : Body} {span : Span} (fits : span.Fits cs) (named : kind.Placed cs)
      (coversName : span.Covers kind.span) (coversItems : ∀ i ∈ body, span.Covers i.span)
      (behind : ∀ i ∈ body, kind.span.Before i.span)
      (apart : body.Pairwise fun i j => i.span.Before j.span) :
      Placed cs (.block kind body span)

variable {cs : List Char} {last : Span} {ts rest : List Token}

theorem Span.Fits.merge {s t : Span} (hs : s.Fits cs) (ht : t.Fits cs) : (s.merge t).Fits cs := by
  have hs' := hs.ordered
  have ht' := ht.ordered
  have hs'' := hs.inside
  have ht'' := ht.inside
  refine ⟨?_, ?_, ?_, ?_⟩
  · show min s.start t.start ≤ max s.stop t.stop
    omega
  · show max s.stop t.stop ≤ byteLength cs
    omega
  · show IsBoundary cs (min s.start t.start)
    rcases Nat.le_total s.start t.start with h | h
    · rw [Nat.min_eq_left h]; exact hs.start
    · rw [Nat.min_eq_right h]; exact ht.start
  · show IsBoundary cs (max s.stop t.stop)
    rcases Nat.le_total s.stop t.stop with h | h
    · rw [Nat.max_eq_right h]; exact ht.stop
    · rw [Nat.max_eq_left h]; exact hs.stop

theorem Span.covers_merge_left (s t : Span) : (s.merge t).Covers s :=
  ⟨Nat.min_le_left _ _, Nat.le_max_left _ _⟩

theorem Span.covers_merge_right (s t : Span) : (s.merge t).Covers t :=
  ⟨Nat.min_le_right _ _, Nat.le_max_right _ _⟩

theorem Span.fits_point_zero (cs : List Char) : (Span.point 0).Fits cs :=
  ⟨Nat.le_refl 0, Nat.zero_le _, isBoundary_iff.2 ⟨[], cs, rfl, rfl⟩,
    isBoundary_iff.2 ⟨[], cs, rfl, rfl⟩⟩

theorem Span.fits_of_slice? {s : Span} {inside : List Char} (h : s.slice? cs = some inside) :
    s.Fits cs := by
  obtain ⟨hstart, hstop⟩ := isBoundary_of_slice? h
  obtain ⟨before, after, rfl, hbefore, hinside⟩ := Span.slice?_eq_some_iff.1 h
  rw [byteLength_append] at hinside
  refine ⟨by omega, ?_, hstart, hstop⟩
  rw [byteLength_append, byteLength_append]
  omega

/-! ## Tokens -/

/-- The tokens stand one behind the other in the text and only the last of them may be the end of
the file.  `last` is where the last token before that stands. -/
structure Spaced (cs : List Char) (last : Span) (ts : List Token) : Prop where
  apart : ts.Pairwise fun s t => s.span.Before t.span
  final : ts.Pairwise fun s _ => s.kind ≠ .endOfFile
  texts : ∀ t ∈ ts, t.span.slice? cs = some t.text.toList
  nonempty : ∀ t ∈ ts, t.kind ≠ .endOfFile → t.span.start < t.span.stop
  words : ∀ t ∈ ts, t.kind = .ident → Lexeme .ident t.text.toList
  fits : last.Fits cs
  upTo : ∀ t ∈ ts, t.kind ≠ .endOfFile → t.span.start ≤ last.start ∧ t.span.stop ≤ last.stop
  beyond : ∀ t ∈ ts, t.kind = .endOfFile → last.stop ≤ t.span.start

namespace Spaced

theorem sublist {ss : List Token} (h : Spaced cs last ts) (hsub : ss.Sublist ts) :
    Spaced cs last ss :=
  ⟨h.apart.sublist hsub, h.final.sublist hsub, fun t ht => h.texts t (hsub.subset ht),
    fun t ht => h.nonempty t (hsub.subset ht), fun t ht => h.words t (hsub.subset ht), h.fits,
    fun t ht => h.upTo t (hsub.subset ht), fun t ht => h.beyond t (hsub.subset ht)⟩

theorem drop (h : Spaced cs last ts) (n : Nat) : Spaced cs last (ts.drop n) :=
  h.sublist (List.drop_sublist n ts)

theorem leadsTo (h : Spaced cs last ts) (hto : Grammar.LeadsTo ts rest) : Spaced cs last rest := by
  obtain ⟨read, rfl, -⟩ := hto
  exact h.sublist (List.sublist_append_right read rest)

theorem span_fits {t : Token} (h : Spaced cs last ts) (ht : t ∈ ts) : t.span.Fits cs :=
  Span.fits_of_slice? (h.texts t ht)

/-- Where the list begins, whether it has a token there or has run out. -/
theorem current_fits (h : Spaced cs last ts) : (Token.current ts).span.Fits cs := by
  cases ts with
  | nil => exact Span.fits_point_zero cs
  | cons t ts => exact h.span_fits List.mem_cons_self

theorem ident {t : Token} (h : Spaced cs last ts) (ht : t ∈ ts) (hk : t.kind = .ident) :
    (Ident.ofToken t).Placed cs :=
  ⟨h.span_fits ht, h.nonempty t ht (by rw [hk]; decide), h.texts t ht, h.words t ht hk⟩

theorem before {t : Token} (h : Spaced cs last (t :: ts)) :
    ∀ s ∈ ts, t.span.stop ≤ s.span.start :=
  fun _ hs => List.rel_of_pairwise_cons h.apart hs

/-- The end of the file is the last of the tokens. -/
theorem eq_nil_of_endOfFile {t : Token} (h : Spaced cs last (t :: ts)) (hk : t.kind = .endOfFile) :
    ts = [] := by
  cases ts with
  | nil => rfl
  | cons s ts => exact absurd hk (List.rel_of_pairwise_cons h.final List.mem_cons_self)

end Spaced

/-- **The tokens of a source stand one behind the other.** -/
theorem spaced_tokenize (source : String) :
    Spaced source.toList (lastSpan (tokenize source)) (tokenize source) := by
  obtain ⟨front, heq, hfront⟩ := exists_front_tokenize source
  have hlast : lastSpan (tokenize source) = (front.getLast?.map Token.span).getD (Span.point 0) := by
    rw [lastSpan, heq, List.dropLast_concat]
  have hmem : ∀ t ∈ tokenize source, t.kind ≠ .endOfFile → t ∈ front := by
    intro t ht hk
    rw [heq] at ht
    rcases List.mem_append.1 ht with ht | ht
    · exact ht
    · rw [List.mem_singleton.1 ht] at hk
      exact absurd rfl hk
  have hkind : ∀ t ∈ front, t.kind ≠ .endOfFile := by
    intro t ht
    obtain ⟨⟨rest, is⟩, -⟩ := hfront t ht
    exact is.kind_ne
  have hapart := apart_tokenize source
  have hfits : ∀ t ∈ tokenize source, t.span.Fits source.toList :=
    fun t ht => Span.fits_of_slice? (slice?_of_mem_tokenize ht)
  constructor
  case apart => exact hapart
  case final =>
    rw [heq, List.pairwise_append]
    exact ⟨List.pairwise_of_forall_mem_list fun s hs _ _ => hkind s hs,
      List.pairwise_singleton _ _, fun s hs _ _ => hkind s hs⟩
  case texts => exact fun t ht => slice?_of_mem_tokenize ht
  case nonempty => exact fun t ht hk => (hfront t (hmem t ht hk)).2
  case words =>
    intro t ht hk
    have hlexeme := lexeme_of_mem_tokenize ht (by rw [hk]; decide) (by rw [hk]; decide)
    rwa [hk] at hlexeme
  case fits =>
    rw [hlast]
    cases hfinal : front.getLast? with
    | none => exact Span.fits_point_zero _
    | some t =>
      have ht : t ∈ tokenize source := by
        rw [heq]
        exact List.mem_append_left _ (List.mem_of_getLast? hfinal)
      exact hfits t ht
  case upTo =>
    intro t ht hk
    have ht := hmem t ht hk
    cases front using List.reverseRecOn with
    | nil => cases ht
    | append_singleton front final =>
      rw [List.getLast?_concat] at hlast
      rw [hlast]
      rcases List.mem_append.1 ht with ht | ht
      · have hfinal : final ∈ tokenize source := by rw [heq]; simp
        rw [heq, List.append_assoc, List.pairwise_append] at hapart
        have hbefore : t.span.stop ≤ final.span.start := hapart.2.2 t ht final (by simp)
        have htspan := (hfits t (by rw [heq]; simp [ht])).ordered
        have hfspan := (hfits final hfinal).ordered
        constructor
        · show t.span.start ≤ final.span.start
          omega
        · show t.span.stop ≤ final.span.stop
          omega
      · rw [List.mem_singleton.1 ht]
        exact ⟨Nat.le_refl _, Nat.le_refl _⟩
  case beyond =>
    intro t ht hk
    rw [heq] at ht
    rcases List.mem_append.1 ht with ht | ht
    · exact absurd hk (hkind t ht)
    · rw [hlast]
      cases hfinal : front.getLast? with
      | none => exact Nat.zero_le _
      | some final =>
        have hfinal : final ∈ front := List.mem_of_getLast? hfinal
        rw [heq, List.pairwise_append] at hapart
        exact hapart.2.2 final hfinal t ht

/-! ## Expressions -/

namespace Grammar

/-- The span starts and ends within the tokens from `ts` up to `rest`. -/
structure Lies (ts rest : List Token) (s : Span) : Prop where
  start : ∀ lo, (∀ t ∈ ts, lo ≤ t.span.start) → lo ≤ s.start
  stop : ∀ hi, (∀ t ∈ ts, t.kind ≠ .endOfFile → t.span.stop ≤ hi) → s.stop ≤ hi
  before : ∀ t ∈ rest, s.stop ≤ t.span.start

theorem Lies.head {t : Token} (hs : Spaced cs last (t :: ts)) (hk : t.kind ≠ .endOfFile)
    (hto : LeadsTo ts rest) : Lies (t :: ts) rest t.span where
  start _ h := h t List.mem_cons_self
  stop _ h := h t List.mem_cons_self hk
  before s hmem := hs.before s (hto.subset s hmem)

/-- The arguments of a call, from `ts` up to `rest`, and the place of the parenthesis that closes
them. -/
structure ArgsLie (cs : List Char) (ts rest : List Token) (args : List Expr) (close : Span) :
    Prop where
  placed : ∀ e ∈ args, e.Placed cs
  start : ∀ lo, (∀ t ∈ ts, lo ≤ t.span.start) → ∀ e ∈ args, lo ≤ e.span.start
  apart : args.Pairwise fun e f => e.span.Before f.span
  closed : ∀ e ∈ args, e.span.Before close
  token : ∃ t ∈ ts, t.kind ≠ .endOfFile ∧ close = t.span
  before : ∀ t ∈ rest, close.stop ≤ t.span.start

/-- Nothing stands in front of the parenthesis. -/
theorem ArgsLie.nil {t : Token} (hs : Spaced cs last ts) (hto : LeadsTo ts (t :: rest))
    (hk : t.kind = .closeParen) : ArgsLie cs ts rest [] t.span where
  placed e he := by cases he
  start lo h e he := by cases he
  apart := .nil
  closed e he := by cases he
  token := ⟨t, hto.subset t List.mem_cons_self, by rw [hk]; decide, rfl⟩
  before := (hs.leadsTo hto).before

/-- One more argument in front. -/
theorem ArgsLie.cons {start next others : List Token} {arg : Expr} {args : List Expr}
    {close : Span} (hstart : LeadsTo ts start) (hnext : LeadsTo start next)
    (hothers : LeadsTo next others) (harg : arg.Placed cs) (hlies : Lies start next arg.span)
    (hargs : ArgsLie cs others rest args close) : ArgsLie cs ts rest (arg :: args) close where
  placed := List.forall_mem_cons.2 ⟨harg, hargs.placed⟩
  start lo h := by
    have hlo : ∀ t ∈ start, lo ≤ t.span.start := fun t ht => h t (hstart.subset t ht)
    refine List.forall_mem_cons.2 ⟨hlies.start lo hlo, hargs.start lo fun t ht => ?_⟩
    exact hlo t (hnext.subset t (hothers.subset t ht))
  apart := .cons
    (hargs.start arg.span.stop fun t ht => hlies.before t (hothers.subset t ht)) hargs.apart
  closed := by
    refine List.forall_mem_cons.2 ⟨?_, hargs.closed⟩
    obtain ⟨t, ht, -, rfl⟩ := hargs.token
    exact hlies.before t (hothers.subset t ht)
  token := by
    obtain ⟨t, ht, hk, hclose⟩ := hargs.token
    have hto := hstart.trans (hnext.trans hothers)
    exact ⟨t, hto.subset t ht, hk, hclose⟩
  before := hargs.before

/-- The segments of a path are names among its tokens. -/
theorem IsSegments.exists_names {segments : List Ident} (h : IsSegments ts segments rest) :
    ∃ read names : List Token, ts = read ++ rest ∧ names.Sublist read ∧
      segments = names.map Ident.ofToken ∧
      ∀ t ∈ names, t.kind = .ident := by
  induction h with
  | none ts => exact ⟨[], [], rfl, .slnil, rfl, by simp⟩
  | @more dot name ts rest segments _ nameKind _ ih =>
    obtain ⟨read, names, rfl, hsub, rfl, hnames⟩ := ih
    exact ⟨dot :: name :: read, name :: names, rfl, .cons _ (.cons_cons _ hsub), rfl,
      List.forall_mem_cons.2 ⟨nameKind, hnames⟩⟩

/-- Of names one behind the other, the span from the first to the last covers each. -/
theorem covers_of_apart {root : Ident} {segments : List Ident}
    (hplaced : ∀ i ∈ root :: segments, i.Placed cs)
    (hapart : (root :: segments).Pairwise fun i j => i.span.Before j.span) :
    ∀ i ∈ root :: segments, (root.span.merge (segments.getLastD root).span).Covers i.span := by
  intro i hi
  have hispan := (hplaced i hi).nonempty
  have hrspan := (hplaced root List.mem_cons_self).nonempty
  have hstart : root.span.start ≤ i.span.start := by
    rcases List.mem_cons.1 hi with rfl | hi
    · exact Nat.le_refl _
    · have hbefore : root.span.stop ≤ i.span.start := List.rel_of_pairwise_cons hapart hi
      omega
  have hstop : i.span.stop ≤ (segments.getLastD root).span.stop := by
    cases segments using List.reverseRecOn with
    | nil => exact Nat.le_of_eq (by rw [List.mem_singleton.1 hi]; rfl)
    | append_singleton segments final =>
      rw [List.getLastD_concat]
      rw [← List.cons_append] at hi hapart hplaced
      have hfspan := (hplaced final (by simp)).nonempty
      rcases List.mem_append.1 hi with hi | hi
      · have hbefore : i.span.stop ≤ final.span.start :=
          (List.pairwise_append.1 hapart).2.2 i hi final (List.mem_singleton_self final)
        omega
      · exact Nat.le_of_eq (by rw [List.mem_singleton.1 hi])
  constructor
  · exact Nat.le_trans (Nat.min_le_left _ _) hstart
  · exact Nat.le_trans hstop (Nat.le_max_right _ _)

theorem placed_of_isPath {t : Token} {segments : List Ident} (hs : Spaced cs last (t :: ts))
    (hk : t.kind = .ident) (h : IsSegments ts segments rest) :
    (Expr.ofSegments (Ident.ofToken t) segments).Placed cs ∧
      Lies (t :: ts) rest (Expr.ofSegments (Ident.ofToken t) segments).span := by
  obtain ⟨read, names, rfl, hsub, rfl, hnames⟩ := h.exists_names
  have hsub' : (t :: names).Sublist (t :: (read ++ rest)) :=
    .cons_cons _ (hsub.trans (List.sublist_append_left read rest))
  have hident : ∀ s ∈ t :: names, s.kind = .ident := List.forall_mem_cons.2 ⟨hk, hnames⟩
  have hkinds : ∀ s ∈ t :: names, s.kind ≠ .endOfFile := by
    intro s hmem
    rw [hident s hmem]
    decide
  have hplaced : ∀ i ∈ Ident.ofToken t :: names.map Ident.ofToken, i.Placed cs := by
    rw [← List.map_cons]
    intro i hi
    obtain ⟨s, hmem, rfl⟩ := List.mem_map.1 hi
    exact hs.ident (hsub'.subset hmem) (hident s hmem)
  have hapart : (Ident.ofToken t :: names.map Ident.ofToken).Pairwise
      fun i j => i.span.Before j.span := by
    rw [← List.map_cons, List.pairwise_map]
    exact hs.apart.sublist hsub'
  obtain ⟨final, hfinal, heq⟩ : ∃ final ∈ t :: names,
      (names.map Ident.ofToken).getLastD (Ident.ofToken t) = Ident.ofToken final := by
    cases names using List.reverseRecOn with
    | nil => exact ⟨t, List.mem_cons_self, rfl⟩
    | append_singleton names final =>
      exact ⟨final, by simp, by rw [List.map_append, List.map_singleton, List.getLastD_concat]⟩
  have hfits := (hplaced _ List.mem_cons_self).fits.merge
    (hs.ident (hsub'.subset hfinal) (hident final hfinal)).fits
  have hcovers := covers_of_apart hplaced hapart
  unfold Expr.ofSegments
  rw [heq] at hcovers ⊢
  refine ⟨.path hfits hplaced hcovers hapart, ⟨fun lo h => ?_, fun hi h => ?_, fun s hmem => ?_⟩⟩
  · exact Nat.le_min.2 ⟨h t List.mem_cons_self, h final (hsub'.subset hfinal)⟩
  · exact Nat.max_le.2 ⟨h t List.mem_cons_self (hkinds t List.mem_cons_self),
      h final (hsub'.subset hfinal) (hkinds final hfinal)⟩
  · refine Nat.max_le.2 ⟨hs.before s (List.mem_append_right read hmem), ?_⟩
    rcases List.mem_cons.1 hfinal with rfl | hfinal
    · exact hs.before s (List.mem_append_right read hmem)
    · have hs := (List.pairwise_append.1 (List.pairwise_cons.1 hs.apart).2).2.2
      exact hs final (hsub.subset hfinal) s hmem

/-- A call covers its name and its arguments. -/
theorem placed_of_isCall {name paren : Token} {args : List Expr} {close : Span}
    (hs : Spaced cs last (name :: paren :: ts)) (hk : name.kind = .ident)
    (h : ArgsLie cs ts rest args close) :
    (Expr.call (Ident.ofToken name) args (name.span.merge close)).Placed cs ∧
      Lies (name :: paren :: ts) rest (name.span.merge close) := by
  have hkind : name.kind ≠ .endOfFile := by rw [hk]; decide
  have hname := hs.ident List.mem_cons_self hk
  have hbehind : ∀ e ∈ args, name.span.stop ≤ e.span.start :=
    h.start _ fun t ht => hs.before t (List.mem_cons_of_mem paren ht)
  obtain ⟨t, ht, htk, rfl⟩ := h.token
  have hmem : t ∈ name :: paren :: ts := by simp [ht]
  have htspan := (hs.span_fits hmem).ordered
  have hnspan := hname.nonempty
  refine ⟨.call (hname.fits.merge (hs.span_fits hmem)) hname h.placed
    (Span.covers_merge_left _ _) (fun e he => ⟨?_, ?_⟩) hbehind h.apart, ⟨?_, ?_, ?_⟩⟩
  · have hstart := hbehind e he
    have hle := Nat.min_le_left name.span.start t.span.start
    show min name.span.start t.span.start ≤ e.span.start
    change name.span.start < name.span.stop at hnspan
    omega
  · have hstop : e.span.stop ≤ t.span.start := h.closed e he
    show e.span.stop ≤ max name.span.stop t.span.stop
    omega
  · exact fun lo hlo => Nat.le_min.2 ⟨hlo name List.mem_cons_self, hlo t hmem⟩
  · exact fun hi hhi => Nat.max_le.2 ⟨hhi name List.mem_cons_self hkind, hhi t hmem htk⟩
  · intro s hmem'
    have hclose := h.before s hmem'
    have hbefore : name.span.stop ≤ t.span.start := hs.before t (List.mem_cons_of_mem paren ht)
    show max name.span.stop t.span.stop ≤ s.span.start
    omega

mutual

/-- **What is read as an expression has its parts where their spans say.** -/
theorem placed_of_isExpr : ∀ {ts : List Token} {e : Expr} {rest : List Token},
    IsExpr ts e rest → Spaced cs last ts → e.Placed cs ∧ Lies ts rest e.span
  | _, _, _, .quoted ts kind, hs =>
    ⟨.quoted (hs.span_fits List.mem_cons_self), .head hs (by rw [kind]; decide) (.refl ts)⟩
  | _, _, _, .hex ts kind, hs =>
    ⟨.hex (hs.span_fits List.mem_cons_self), .head hs (by rw [kind]; decide) (.refl ts)⟩
  | _, _, _, .number ts kind, hs =>
    ⟨.number (hs.span_fits List.mem_cons_self), .head hs (by rw [kind]; decide) (.refl ts)⟩
  | _, _, _, .truth kind _, hs =>
    ⟨.truth (hs.span_fits List.mem_cons_self), .head hs (by rw [kind]; decide) (.refl _)⟩
  | _, _, _, .path kind _ others, hs => placed_of_isPath hs kind others
  | _, _, _, .call nameKind _ inner, hs =>
    placed_of_isCall hs nameKind (argsLie_of_isArgs inner (hs.drop 2))

theorem argsLie_of_isArgs : ∀ {ts : List Token} {args : List Expr} {close : Span}
    {rest : List Token}, IsArgs ts args close rest → Spaced cs last ts →
      ArgsLie cs ts rest args close
  | _, _, _, _, .none lines kind, hs => .nil hs lines.leadsTo kind
  | _, _, _, _, .some before first behind more, hs => by
    have hstart := hs.leadsTo before.leadsTo
    have hnext := hstart.leadsTo first.leadsTo
    obtain ⟨harg, hlies⟩ := placed_of_isExpr first hstart
    have hargs := argsLie_of_isMoreArgs more (hnext.leadsTo behind.leadsTo)
    exact hargs.cons before.leadsTo first.leadsTo behind.leadsTo harg hlies

theorem argsLie_of_isMoreArgs : ∀ {ts : List Token} {args : List Expr} {close : Span}
    {rest : List Token}, IsMoreArgs ts args close rest → Spaced cs last ts →
      ArgsLie cs ts rest args close
  | _, _, _, _, .close rest kind, hs => .nil hs (.refl _) kind
  | _, _, _, _, .trailing commaKind lines kind, hs =>
    .nil hs (.cons commaKind (by decide) lines.leadsTo) kind
  | _, _, _, _, .more commaKind before first behind more, hs => by
    have hstart := (hs.drop 1).leadsTo before.leadsTo
    have hnext := hstart.leadsTo first.leadsTo
    obtain ⟨harg, hlies⟩ := placed_of_isExpr first hstart
    have hargs := argsLie_of_isMoreArgs more (hnext.leadsTo behind.leadsTo)
    exact hargs.cons (.cons commaKind (by decide) before.leadsTo) first.leadsTo behind.leadsTo harg
      hlies

end

end Grammar

/-! ## Bodies -/

/-- Items in the first `n` of the tokens: each is placed, they stand one behind the other, not in
front of the tokens and before all that is left of them. -/
structure Arranged (cs : List Char) (last : Span) (ts : List Token) (n : Nat) (items : Body) :
    Prop where
  placed : ∀ item ∈ spreadAll items, item.Placed cs
  apart : items.Pairwise fun i j => i.span.Before j.span
  start : ∀ lo, (∀ t ∈ ts, lo ≤ t.span.start) → ∀ i ∈ items, lo ≤ i.span.start
  before : ∀ t ∈ ts.drop n, ∀ i ∈ items, i.span.stop ≤ t.span.start
  upTo : ∀ i ∈ items, i.span.stop ≤ last.stop

section

variable {t : Token} {a b : Body} {m n : Nat}

theorem Arranged.nil (cs : List Char) (last : Span) (ts : List Token) (n : Nat) :
    Arranged cs last ts n [] where
  placed _ h := by cases h
  apart := .nil
  start _ _ _ h := by cases h
  before _ _ _ h := by cases h
  upTo _ h := by cases h

theorem Arranged.append (ha : Arranged cs last ts n a) (hb : Arranged cs last (ts.drop n) m b) :
    Arranged cs last ts (n + m) (a ++ b) where
  placed := by
    rw [spreadAll_append]
    exact List.forall_mem_append.2 ⟨ha.placed, hb.placed⟩
  apart := by
    refine List.pairwise_append.2 ⟨ha.apart, hb.apart, fun i hi j hj => ?_⟩
    exact hb.start i.span.stop (fun t ht => ha.before t ht i hi) j hj
  start lo h := by
    have hdrop : ∀ t ∈ ts.drop n, lo ≤ t.span.start := fun t ht => h t (List.mem_of_mem_drop ht)
    exact List.forall_mem_append.2 ⟨ha.start lo h, hb.start lo hdrop⟩
  before t ht := by
    rw [← List.drop_drop] at ht
    exact List.forall_mem_append.2 ⟨ha.before t (List.mem_of_mem_drop ht), hb.before t ht⟩
  upTo := List.forall_mem_append.2 ⟨ha.upTo, hb.upTo⟩

/-- An attribute covers its name and its value. -/
theorem arranged_assignment {value : Expr} {k : Nat} (hs : Spaced cs last (t :: ts))
    (hk : t.kind = .ident) (hvalue : readExpr (ts.drop 1) = (.ok value, n)) (hnk : n ≤ k) :
    Arranged cs last (t :: ts) (2 + k)
      [.assignment ⟨.ofToken t, value, t.span.merge value.span⟩] := by
  obtain ⟨hplaced, hlies⟩ := Grammar.placed_of_isExpr (Grammar.isExpr_of_read hvalue)
    ((hs.drop 1).drop 1)
  have hname := hs.ident List.mem_cons_self hk
  have hbehind : t.span.stop ≤ value.span.start :=
    hlies.start _ fun s hmem => hs.before s (List.mem_of_mem_drop hmem)
  have hnspan := hname.fits.ordered
  have hvspan : value.span.Fits cs := by cases hplaced <;> assumption
  have htlast := hs.upTo t List.mem_cons_self (by rw [hk]; decide)
  have hvlast : value.span.stop ≤ last.stop := hlies.stop _ fun s hmem hs' =>
    (hs.upTo s (List.mem_cons_of_mem t (List.mem_of_mem_drop hmem)) hs').2
  constructor
  case placed =>
    intro item hitem
    rw [List.mem_singleton.1 hitem]
    exact .assignment (hname.fits.merge hvspan) hname hplaced (Span.covers_merge_left _ _)
      (Span.covers_merge_right _ _) hbehind
  case apart => exact List.pairwise_singleton _ _
  case start =>
    intro lo h i hi
    rw [List.mem_singleton.1 hi]
    have hlo := h t List.mem_cons_self
    change t.span.start ≤ t.span.stop at hnspan
    show lo ≤ min t.span.start value.span.start
    omega
  case before =>
    intro s hmem i hi
    rw [List.mem_singleton.1 hi]
    rw [show 2 + k = 1 + k + 1 by omega, List.drop_succ_cons] at hmem
    have hmem : s ∈ (ts.drop 1).drop n := by
      rw [List.drop_drop]
      exact (List.drop_sublist_drop_left ts (by omega)).subset hmem
    have hvalue := hlies.before s hmem
    have htoken := hs.before s (List.mem_of_mem_drop (List.mem_of_mem_drop hmem))
    exact Nat.max_le.2 ⟨htoken, hvalue⟩
  case upTo =>
    intro i hi
    rw [List.mem_singleton.1 hi]
    exact Nat.max_le.2 ⟨htlast.2, hvlast⟩

theorem arranged_attribute (hs : Spaced cs last (t :: ts)) (hk : t.kind = .ident) :
    Arranged cs last (t :: ts) (2 + (readAttribute (.ofToken t) (ts.drop 1)).used)
      (readAttribute (.ofToken t) (ts.drop 1)).items := by
  unfold readAttribute
  split
  · exact .nil _ _ _ _
  · split
    · exact .nil _ _ _ _
    · rename_i value n hvalue
      dsimp only
      split
      · exact arranged_assignment hs hk hvalue (Nat.le_refl n)
      · exact arranged_assignment hs hk hvalue (Nat.le_add_right n _)

/-- A block covers its name and its items, when it ends where they have ended. -/
theorem arranged_block (hs : Spaced cs last (t :: ts)) (hk : t.kind = .ident)
    (h : Arranged cs last (ts.drop 1) n a) {stop : Span} (hfits : stop.Fits cs)
    (hstart : t.span.start ≤ stop.start) (hbehind : t.span.stop ≤ stop.stop)
    (hitems : ∀ i ∈ a, i.span.stop ≤ stop.stop) (hlast : stop.stop ≤ last.stop)
    (hrest : ∀ s ∈ (t :: ts).drop m, stop.stop ≤ s.span.start) :
    Arranged cs last (t :: ts) m [.block (.ofToken t) a (t.span.merge stop)] := by
  have hname := hs.ident List.mem_cons_self hk
  have hbefore : ∀ i ∈ a, t.span.stop ≤ i.span.start :=
    h.start _ fun s hmem => hs.before s (List.mem_of_mem_drop hmem)
  have htspan : t.span.start < t.span.stop := hname.nonempty
  constructor
  case placed =>
    rw [spreadAll, Item.spread, spreadAll_nil, List.append_nil]
    refine List.forall_mem_cons.2 ⟨?_, h.placed⟩
    refine .block (hname.fits.merge hfits) hname (Span.covers_merge_left _ _) (fun i hi => ?_)
      hbefore h.apart
    have histart := hbefore i hi
    have histop := hitems i hi
    constructor
    · show min t.span.start stop.start ≤ i.span.start
      omega
    · show i.span.stop ≤ max t.span.stop stop.stop
      omega
  case apart => exact List.pairwise_singleton _ _
  case start =>
    intro lo hlo i hi
    rw [List.mem_singleton.1 hi]
    have hlo := hlo t List.mem_cons_self
    show lo ≤ min t.span.start stop.start
    omega
  case before =>
    intro s hmem i hi
    rw [List.mem_singleton.1 hi]
    have hstop := hrest s hmem
    show max t.span.stop stop.stop ≤ s.span.start
    omega
  case upTo =>
    intro i hi
    rw [List.mem_singleton.1 hi]
    show max t.span.stop stop.stop ≤ last.stop
    omega

end

/-- A body is read up to the end of the file, or to a closing brace if it is nested. -/
theorem stops_readBody (nested : Bool) (last : Span) (ts : List Token) :
    Grammar.Stops nested (ts.drop (readBody nested last ts).used) := by
  induction nested, ts using readBody.induct last with
  | case1 nested => rw [readBody]; exact .inl rfl
  | case2 nested t ts hk => rw [readBody_of_endOfFile hk]; exact .inl hk
  | case3 nested t ts hk ih =>
    rw [readBody_of_newline hk, Reading.used_after, Nat.add_comm, List.drop_succ_cons]
    exact ih
  | case4 t ts hk => rw [readBody_true_of_closeBrace hk]; exact .inr ⟨rfl, hk⟩
  | case5 nested t ts hk hnested ih =>
    obtain rfl : nested = false := by simpa using hnested
    rw [readBody_false_of_closeBrace hk, Reading.used_after, Nat.add_comm, List.drop_succ_cons]
    exact ih
  | case6 nested t ts hk name hsign value ih =>
    rw [readBody_of_equals hk hsign, Reading.used_after]
    rw [show ∀ k m, 2 + k + m = 1 + k + m + 1 by omega, List.drop_succ_cons, ← List.drop_drop]
    exact ih
  | case7 nested t ts hk hbrace inner close hclose ihInner ih =>
    rw [readBody_of_closed hk hbrace hclose, Reading.used_after]
    rw [show ∀ k m, 3 + k + m = 2 + k + m + 1 by omega, List.drop_succ_cons, ← List.drop_drop]
    exact ih
  | case8 nested t ts hk hbrace inner close hclose ihInner ih =>
    rw [readBody_of_unclosed hk hbrace hclose, Reading.used_after]
    rw [show ∀ k m, 2 + k + m = 1 + k + m + 1 by omega, List.drop_succ_cons, ← List.drop_drop]
    exact ih
  | case9 nested t ts hk hsign hbrace ih =>
    rw [readBody_of_noSign hk hsign hbrace, Reading.used_after]
    rw [show ∀ k m, 1 + k + m = k + m + 1 by omega, List.drop_succ_cons, ← List.drop_drop]
    exact ih
  | case10 nested t ts hend hline hclose hname ih =>
    rw [readBody_of_noItem hend hline hclose hname, Reading.used_after]
    rw [show ∀ k m, 1 + k + m = k + m + 1 by omega, List.drop_succ_cons, ← List.drop_drop]
    exact ih

/-- **The items of a body are placed, one behind the other.** -/
theorem arranged_readBody (nested : Bool) (last : Span) (ts : List Token)
    (hs : Spaced cs last ts) :
    Arranged cs last ts (readBody nested last ts).used (readBody nested last ts).items := by
  induction nested, ts using readBody.induct last with
  | case1 nested => rw [readBody]; exact .nil _ _ _ _
  | case2 nested t ts hk => rw [readBody_of_endOfFile hk]; exact .nil _ _ _ _
  | case3 nested t ts hk ih =>
    rw [readBody_of_newline hk]
    exact (Arranged.nil cs last (t :: ts) 1).append (ih (hs.drop 1))
  | case4 t ts hk => rw [readBody_true_of_closeBrace hk]; exact .nil _ _ _ _
  | case5 nested t ts hk hnested ih =>
    obtain rfl : nested = false := by simpa using hnested
    rw [readBody_false_of_closeBrace hk]
    exact (Arranged.nil cs last (t :: ts) 1).append (ih (hs.drop 1))
  | case6 nested t ts hk name hsign value ih =>
    rw [readBody_of_equals hk hsign]
    refine (arranged_attribute hs hk).append ?_
    rw [show ∀ k, 2 + k = 1 + k + 1 by omega, List.drop_succ_cons]
    exact ih ((hs.drop 1).drop _)
  | case7 nested t ts hk hbrace inner close hclose ihInner ih =>
    rw [readBody_of_closed hk hbrace hclose]
    have hinner := ihInner ((hs.drop 1).drop 1)
    have hcloseKind : close.kind ≠ .endOfFile := by rw [hclose]; decide
    have hrest := Grammar.eq_current_cons hcloseKind
    have hmem : close ∈ ts.drop (1 + inner.used) := Grammar.current_mem hcloseKind
    have hcmem : close ∈ t :: ts := List.mem_cons_of_mem t (List.mem_of_mem_drop hmem)
    have htclose := hs.before close (List.mem_of_mem_drop hmem)
    have htspan := (hs.span_fits List.mem_cons_self).ordered
    have hcspan := (hs.span_fits hcmem).ordered
    refine (arranged_block hs hk hinner (hs.span_fits hcmem) ?_ ?_ ?_ ?_ ?_).append ?_
    · exact Nat.le_trans htspan htclose
    · exact Nat.le_trans htclose hcspan
    · intro i hi
      rw [← List.drop_drop] at hmem
      exact Nat.le_trans (hinner.before close hmem i hi) hcspan
    · exact (hs.upTo close hcmem hcloseKind).2
    · intro s hs'
      have hspaced := (hs.drop 1).drop (1 + inner.used)
      rw [List.drop_succ_cons, List.drop_zero, hrest] at hspaced
      rw [show ∀ k, 3 + k = 1 + k + 1 + 1 by omega, List.drop_succ_cons, ← List.drop_drop] at hs'
      exact hspaced.before s hs'
    · rw [show ∀ k, 3 + k = 2 + k + 1 by omega, List.drop_succ_cons]
      exact ih ((hs.drop 1).drop _)
  | case8 nested t ts hk hbrace inner close hclose ihInner ih =>
    rw [readBody_of_unclosed hk hbrace hclose]
    have hinner := ihInner ((hs.drop 1).drop 1)
    have htlast := hs.upTo t List.mem_cons_self (by rw [hk]; decide)
    refine (arranged_block hs hk hinner hs.fits htlast.1 htlast.2 hinner.upTo (Nat.le_refl _)
      ?_).append ?_
    · -- The items end at the end of the file, and nothing is left but that.
      intro s hs'
      rw [show ∀ k, 2 + k = 1 + k + 1 by omega, List.drop_succ_cons] at hs'
      have hspaced := (hs.drop 1).drop (1 + inner.used)
      rw [List.drop_succ_cons, List.drop_zero] at hspaced
      have hstop : close.kind = .endOfFile := by
        have hstops := stops_readBody true last (ts.drop 1)
        rw [List.drop_drop] at hstops
        exact hstops.resolve_right fun h => hclose h.2
      cases hlist : ts.drop (1 + inner.used) with
      | nil => rw [hlist] at hs'; cases hs'
      | cons c others =>
        rw [hlist] at hspaced hs'
        have hc : c.kind = .endOfFile := by
          have hclose' : close = c := by show Token.current _ = c; rw [hlist]; rfl
          rw [← hclose']
          exact hstop
        rw [hspaced.eq_nil_of_endOfFile hc, List.mem_singleton] at hs'
        rw [hs']
        exact hspaced.beyond c List.mem_cons_self hc
    · rw [show ∀ k, 2 + k = 1 + k + 1 by omega, List.drop_succ_cons]
      exact ih ((hs.drop 1).drop _)
  | case9 nested t ts hk hsign hbrace ih =>
    rw [readBody_of_noSign hk hsign hbrace]
    refine (Arranged.nil cs last (t :: ts) _).append ?_
    rw [Nat.add_comm, List.drop_succ_cons]
    exact ih ((hs.drop 1).drop _)
  | case10 nested t ts hend hline hclose hname ih =>
    rw [readBody_of_noItem hend hline hclose hname]
    refine (Arranged.nil cs last (t :: ts) _).append ?_
    rw [Nat.add_comm, List.drop_succ_cons]
    exact ih ((hs.drop 1).drop _)

/-- **The items of a source are placed**, wherever they stand. -/
theorem Body.placed_of_mem {source : String} {item : Item}
    (h : item ∈ spreadAll (Body.read source).items) : item.Placed source.toList :=
  (arranged_readBody false (lastSpan (tokenize source)) _ (spaced_tokenize source)).placed item h

end ColorTheme

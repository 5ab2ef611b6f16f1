import ColorTheme.Editor.Feature
import ColorTheme.Proofs.Editor.CursorPath
import ColorTheme.Proofs.Editor.OpenBlocks
import ColorTheme.Proofs.Item.Value
import ColorTheme.Proofs.Node.Listing
import Mathlib

/-!
# The definition of the path under the cursor

* `Ident.Row` : names under a span, with room for a separator between each two.
* `Ident.Row.start_eq` : where there is no more room than for dots, each name stands behind the
  names before it and a dot for each of them.
* `Document.DefinitionExact` : the path under the cursor, and the definition that is found from each
  segment of a path of the document.
* `Document.definition_exact` : this holds in every document.
-/

set_option autoImplicit false

namespace ColorTheme

variable {cs : List Char} {last : Span} {ts rest : List Token}

/-! ## Names in a row -/

/-- Names under a span, one behind the other and not next to each other. -/
structure Ident.Row (s : Span) (names : List Ident) : Prop where
  covers : ∀ i ∈ names, s.Covers i.span
  lengths : ∀ i ∈ names, i.span.start + byteLength i.name.toList = i.span.stop
  parted : names.Pairwise fun i j => i.span.stop < j.span.start

namespace Ident

/-- The texts of names. -/
def texts (names : List Ident) : List (List Char) := names.map fun i => i.name.toList

namespace Row

variable {s : Span} {i : Ident} {front behind names : List Ident}

/-- Behind the first name there is a separator, and then the others. -/
theorem tail (h : Row s (i :: names)) : Row ⟨i.span.stop + 1, s.stop⟩ names where
  covers j hj := ⟨List.rel_of_pairwise_cons h.parted hj, (h.covers j (List.mem_cons_of_mem i hj)).2⟩
  lengths j hj := h.lengths j (List.mem_cons_of_mem i hj)
  parted := h.parted.of_cons

theorem start_le (h : Row s (front ++ i :: behind)) :
    s.start + byteLength ((texts front).flatMap (· ++ ['.'])) ≤ i.span.start := by
  induction front generalizing s with
  | nil => exact (h.covers i (by simp)).1
  | cons first front ih =>
    have hrest := ih h.tail
    have hfirst := (h.covers first (by simp)).1
    have hlength := h.lengths first (by simp)
    rw [texts, List.map_cons, List.flatMap_cons, byteLength_append, byteLength_append]
    change first.span.stop + 1 + _ ≤ _ at hrest
    have hdot : byteLength ['.'] = 1 := rfl
    unfold texts at hrest
    omega

theorem le_stop (h : Row s (i :: behind)) :
    i.span.stop + byteLength ((texts behind).flatMap ('.' :: ·)) ≤ s.stop := by
  induction behind generalizing s i with
  | nil => exact (h.covers i (by simp)).2
  | cons second behind ih =>
    have hrest := ih h.tail
    have hsecond := (h.tail.covers second (by simp)).1
    have hlength := h.lengths second (by simp)
    rw [texts, List.map_cons, List.flatMap_cons, byteLength_append, byteLength_cons]
    change i.span.stop + 1 ≤ _ at hsecond
    change _ ≤ s.stop at hrest
    have hdot : '.'.utf8Size = 1 := rfl
    unfold texts at hrest
    omega

theorem of_append (h : Row s (front ++ names)) : Row s names where
  covers i hi := h.covers i (List.mem_append_right front hi)
  lengths i hi := h.lengths i (List.mem_append_right front hi)
  parted := (List.pairwise_append.1 h.parted).2.1

/-- **Names in a row with room for nothing but dots** stand where the names with the dots have
them. -/
theorem start_eq (h : Row s (front ++ i :: behind))
    (hroom : s.start + byteLength (joinFields '.' (texts (front ++ i :: behind))) = s.stop) :
    i.span.start = s.start + byteLength ((texts front).flatMap (· ++ ['.'])) := by
  have hstart := h.start_le
  have hstop := h.of_append.le_stop
  have hlength := h.lengths i (by simp)
  rw [texts, List.map_append, List.map_cons, joinFields_append_cons, byteLength_append,
    byteLength_append] at hroom
  unfold texts at hstart hstop ⊢
  omega

end Row

end Ident

namespace Grammar

/-- The dots between the segments of a path keep them apart. -/
theorem IsSegments.parted {segments : List Ident} (h : IsSegments ts segments rest) {t : Token}
    (hs : Spaced cs last (t :: ts)) (hk : t.kind = .ident) :
    (Ident.ofToken t :: segments).Pairwise fun i j => i.span.stop < j.span.start := by
  induction h generalizing t with
  | none ts => exact List.pairwise_singleton _ _
  | @more dot name ts rest segments dotKind nameKind others ih =>
    have hrest := ih (hs.drop 2) nameKind
    have hdot := hs.before dot (by simp)
    have hname := (hs.drop 1).before name (by simp)
    have hwide := hs.nonempty dot (by simp) (by rw [dotKind]; decide)
    have hplaced := (hs.ident (t := name) (by simp) nameKind).nonempty
    refine .cons (List.forall_mem_cons.2 ⟨?_, fun j hj => ?_⟩) hrest
    · show t.span.stop < name.span.start
      omega
    · have hj : name.span.stop < j.span.start := List.rel_of_pairwise_cons hrest hj
      show t.span.stop < j.span.start
      change name.span.start < name.span.stop at hplaced
      omega

/-- The names of a path stand in a row. -/
theorem row_of_isExpr {root : Ident} {segments : List Ident} {span : Span}
    (h : IsExpr ts (.path root segments span) rest) (hs : Spaced cs last ts) :
    (∀ i ∈ root :: segments, i.Placed cs) ∧ Ident.Row span (root :: segments) := by
  have hplaced := (placed_of_isExpr h hs).1
  have hparted : (root :: segments).Pairwise fun i j => i.span.stop < j.span.start := by
    generalize hpath : Expr.path root segments span = e at h
    cases h with
    | quoted ts kind => cases hpath
    | hex ts kind => cases hpath
    | number ts kind => cases hpath
    | truth kind word => cases hpath
    | path kind word others =>
      cases hpath
      exact others.parted hs kind
    | call nameKind parenKind inner => cases hpath
  cases hplaced with
  | path fits names covers apart =>
    refine ⟨names, covers, fun i hi => ?_, hparted⟩
    obtain ⟨before, after, -, hstart, hstop⟩ := Span.slice?_eq_some_iff.1 (names i hi).text
    rw [← hstart, ← hstop, byteLength_append]

end Grammar

/-- The names of each path in a value of a source stand in a row. -/
theorem Body.row_of_partOf {source : String} {a : Attribute} {root : Ident} {segments : List Ident}
    {span : Span} (h : .assignment a ∈ spreadAll (Body.read source).items)
    (hpart : Expr.PartOf (.path root segments span) a.value) :
    (∀ i ∈ root :: segments, i.Placed source.toList) ∧ Ident.Row span (root :: segments) := by
  obtain ⟨start, rest, hstart, hexpr⟩ := Body.exists_isExpr_of_partOf h hpart
  exact Grammar.row_of_isExpr hexpr ((spaced_tokenize source).sublist hstart.sublist)

theorem toList_dotted (names : List Ident) :
    (dotted (names.map Ident.name)).toList = joinFields '.' (Ident.texts names) := by
  induction names with
  | nil => rfl
  | cons i names ih =>
    cases names with
    | nil => exact congrArg String.toList String.intercalate_singleton
    | cons j names =>
      rw [List.map_cons, List.map_cons, dotted_cons_cons, ← List.map_cons, String.toList_append,
        String.toList_append, ih, List.append_assoc]
      rfl

/-! ## Definitions -/

namespace Document

variable {d : Document} {p : Position} {offset : Nat} {before inside after : List Char}

/-- A position whose offset lies in a part of the text is at one of the characters of this part, or
at its end. -/
theorem exists_charIndex (hoffset : d.offset? p = some offset)
    (hcut : d.chars = before ++ inside ++ after) (hstart : byteLength before ≤ offset)
    (hstop : offset ≤ byteLength (before ++ inside)) :
    ∃ n, n ≤ inside.length ∧ d.charIndex? p = some (before.length + n) := by
  obtain ⟨index, hindex, rfl⟩ := Option.map_eq_some_iff.1 hoffset
  have hlength := List.length_take_of_le (le_length_of_charIndex? hindex)
  have hchars : d.chars = d.chars.take index ++ d.chars.drop index :=
    (List.take_append_drop index d.chars).symm
  obtain ⟨part, htaken, -⟩ := exists_append_of_byteLength_le
    ((List.append_assoc before inside after).symm.trans (hcut.symm.trans hchars)) hstart
  obtain ⟨others, hinside, -⟩ := exists_append_of_byteLength_le (hchars.symm.trans hcut) hstop
  rw [htaken, List.append_assoc, List.append_cancel_left_eq] at hinside
  rw [htaken, List.length_append] at hlength
  refine ⟨part.length, ?_, by rw [hindex, ← hlength]⟩
  rw [hinside, List.length_append]
  exact Nat.le_add_right _ _

/-- What is found at each position of a document, and from where in a path its segments are looked
up. -/
structure DefinitionExact (d : Document) : Prop where
  /-- Around each place of the text there is one run of path characters. -/
  run : ∀ index, index ≤ d.chars.length → ∃! path, CursorPath.IsRun d.chars index path
  /-- The run around the cursor is found, unless it is empty or has nothing but dots. -/
  found : ∀ p path, d.pathAt? p = some path ↔ ∃ index, d.charIndex? p = some index ∧
    index ≤ d.chars.length ∧ CursorPath.IsRun d.chars index path ∧ ∃ c ∈ path.text, c ≠ '.'
  /-- The segments with dots between them are the path, and have no dots in them. -/
  segments : ∀ path : CursorPath, joinFields '.' path.segments = path.text ∧
    ∀ segment ∈ path.segments, '.' ∉ segment
  /-- The segments up to the cursor are the shortest part of the path that ends at the end of the
  path or in front of a dot, and reaches the cursor. -/
  cut : ∀ p path, d.pathAt? p = some path → ∃ n, path.Stops n ∧ (∀ m, path.Stops m → n ≤ m) ∧
    joinFields '.' path.throughCursor = path.text.take n ∧ path.throughCursor <+: path.segments
  /-- Wherever a path into a known block is written with single dots and nothing else between its
  names, and no path character stands next to it, the cursor in one of the names, or at an end of
  it, leads to the symbol that the names up to this one make, if there is one. -/
  definition : ∀ (table : BlockTable) (a : Analysis) (assigned : Attribute) (root : Ident)
    (rest : List Ident) (span : Span) (before after : List Char),
    .assignment assigned ∈ spreadAll (Body.read d.text).items →
    Expr.PartOf (.path root rest span) assigned.value →
    d.chars = before ++ (dotted ((root :: rest).map Ident.name)).toList ++ after →
    byteLength before = span.start →
    byteLength (before ++ (dotted ((root :: rest).map Ident.name)).toList) = span.stop →
    (∀ c, before.getLast? = some c → isPathChar c = false) →
    (∀ c, after.head? = some c → isPathChar c = false) →
    table.knows root.name = true →
    ∀ (k : Nat) (name : Ident) (p : Position) (offset : Nat), (root :: rest)[k]? = some name →
      d.offset? p = some offset → name.span.start ≤ offset → offset ≤ name.span.stop →
      definition? table d a p =
        (a.symbols.get? (((root :: rest).take (k + 1)).map Ident.name)).map d.range

/-- From a name of a path that stands in its document with nothing but dots between its names, the
symbol is looked up that this name and those before it make. -/
theorem definition?_of_row {table : BlockTable} {a : Analysis} {root name : Ident}
    {rest front behind : List Ident} {span : Span} (hsplit : root :: rest = front ++ name :: behind)
    (hplaced : ∀ i ∈ root :: rest, i.Placed d.chars) (hrow : Ident.Row span (root :: rest))
    (hcut : d.chars = before ++ joinFields '.' (Ident.texts (root :: rest)) ++ after)
    (hstart : byteLength before = span.start)
    (hstop : byteLength (before ++ joinFields '.' (Ident.texts (root :: rest))) = span.stop)
    (hbefore : ∀ c, before.getLast? = some c → isPathChar c = false)
    (hafter : ∀ c, after.head? = some c → isPathChar c = false)
    (hknown : table.knows root.name = true) (hoffset : d.offset? p = some offset)
    (hleft : name.span.start ≤ offset) (hright : offset ≤ name.span.stop) :
    definition? table d a p =
      (a.symbols.get? ((front ++ [name]).map Ident.name)).map d.range := by
  rw [hsplit] at hrow
  have htexts : Ident.texts (root :: rest) =
      Ident.texts front ++ name.name.toList :: Ident.texts behind := by
    rw [hsplit, Ident.texts, List.map_append, List.map_cons]
    rfl
  have hjoin := joinFields_append_cons '.' (Ident.texts front) name.name.toList
    (Ident.texts behind)
  have hname : name.span.start =
      span.start + byteLength ((Ident.texts front).flatMap (· ++ ['.'])) := by
    refine hrow.start_eq ?_
    rw [← hsplit, ← hstart, ← byteLength_append, hstop]
  have hlength := hrow.lengths name (by simp)
  have hparts : d.chars = (before ++ (Ident.texts front).flatMap (· ++ ['.'])) ++
      name.name.toList ++ ((Ident.texts behind).flatMap ('.' :: ·) ++ after) := by
    rw [hcut, htexts, hjoin]
    simp only [List.append_assoc]
  have hat : byteLength (before ++ (Ident.texts front).flatMap (· ++ ['.'])) = name.span.start := by
    rw [byteLength_append, hstart, hname]
  obtain ⟨n, hn, hindex⟩ := exists_charIndex hoffset hparts (by omega)
    (by rw [byteLength_append]; omega)
  have hwords : ∀ w ∈ Ident.texts front ++ name.name.toList :: Ident.texts behind, IsWord w := by
    rw [← htexts]
    intro w hw
    obtain ⟨i, hi, rfl⟩ := List.mem_map.1 hw
    exact ⟨(hplaced i hi).word.ne_nil, isWordChar_of_ident (hplaced i hi).word⟩
  obtain ⟨path, hpath, hsegments, hthrough⟩ := exists_path_of_cut hwords (htexts ▸ hcut) hbefore
    hafter (by rw [hindex, List.length_append, Nat.add_assoc]) hn
  have hroot : (path.segments.head?.any fun root => table.knows (String.ofList root)) = true := by
    rw [hsegments, ← htexts, Ident.texts, List.map_cons, List.head?_cons, Option.any_some,
      String.ofList_toList, hknown]
  have hnames : path.throughCursor.map String.ofList = (front ++ [name]).map Ident.name := by
    rw [hthrough, Ident.texts, List.map_append, List.map_map, List.map_append]
    simp
  rw [definition?, hpath, Option.bind_some, if_pos hroot, hnames]

/-- **In every document, the definition under the cursor is that of the path up to the cursor.** -/
theorem definition_exact (d : Document) : d.DefinitionExact := by
  constructor
  case run => exact fun _ h => CursorPath.existsUnique_isRun h
  case found =>
    intro p path
    rw [pathAt?_eq_some_iff]
    constructor
    · rintro ⟨index, hindex, hrun⟩
      exact ⟨index, hindex, le_length_of_charIndex? hindex, hrun⟩
    · rintro ⟨index, hindex, -, hrun⟩
      exact ⟨index, hindex, hrun⟩
  case segments =>
    exact fun path => ⟨join_fields '.' path.text, fun _ h => not_mem_of_mem_fields h⟩
  case cut =>
    intro p path h
    obtain ⟨index, -, hrun, -⟩ := pathAt?_eq_some_iff.1 h
    exact CursorPath.exists_stops hrun.within
  case definition =>
    intro table a assigned root rest span before after hitem hpart hcut hstart hstop hbefore hafter
      hknown k name p offset hname hoffset hleft hright
    obtain ⟨hplaced, hrow⟩ := Body.row_of_partOf hitem hpart
    rw [toList_dotted] at hcut hstop
    obtain ⟨hlt, rfl⟩ := List.getElem?_eq_some_iff.1 hname
    have hsplit : root :: rest =
        (root :: rest).take k ++ (root :: rest)[k] :: (root :: rest).drop (k + 1) := by
      rw [← List.drop_eq_getElem_cons hlt, List.take_append_drop]
    rw [definition?_of_row hsplit hplaced hrow hcut hstart hstop hbefore hafter hknown hoffset
      hleft hright, List.take_append_getElem hlt]

/-- A document with a reference behind a character of two bytes. -/
def steppingText : Document := ⟨1, "palette \x7b // é\n  low = #102030\n  ink = palette.low\n\x7d\n"⟩

/-- The attribute `ink = palette.low`. -/
def inkAttribute : Attribute :=
  ⟨⟨"ink", ⟨34, 37⟩⟩, .path ⟨"palette", ⟨40, 47⟩⟩ [⟨"low", ⟨48, 51⟩⟩] ⟨40, 51⟩, ⟨34, 51⟩⟩

theorem definition_exact_steppingText :
    steppingText.DefinitionExact ∧
      .assignment inkAttribute ∈ spreadAll (Body.read steppingText.text).items ∧
      steppingText.offset? ⟨2, 18⟩ = some 50 ∧
      definition? .standard steppingText (Analysis.ofSource .standard steppingText.text) ⟨2, 18⟩ =
        ((Analysis.ofSource .standard steppingText.text).symbols.get? ["palette", "low"]).map
          steppingText.range ∧
      ((Analysis.ofSource .standard steppingText.text).symbols.get? ["palette", "low"]).map
        steppingText.range = some ⟨⟨1, 2⟩, ⟨1, 5⟩⟩ := by
  have hexact := definition_exact steppingText
  have hitem : .assignment inkAttribute ∈ spreadAll (Body.read steppingText.text).items := by
    have hread : (Body.read steppingText.text).items = [.block ⟨"palette", ⟨0, 7⟩⟩
        [.assignment ⟨⟨"low", ⟨18, 21⟩⟩, .hex "#102030" ⟨24, 31⟩, ⟨18, 31⟩⟩,
          .assignment inkAttribute] ⟨0, 53⟩] := by
      cbv
    rw [hread]
    exact List.mem_cons_of_mem _ (List.mem_cons_of_mem _ List.mem_cons_self)
  have hcursor : steppingText.offset? ⟨2, 18⟩ = some 50 := by decide +kernel
  have hbefore : (steppingText.chars.take 39).getLast? = some ' ' := by decide +kernel
  have hafter : (steppingText.chars.drop 50).head? = some '\n' := by decide +kernel
  refine ⟨hexact, hitem, hcursor, ?_, by decide +kernel⟩
  refine hexact.definition .standard _ inkAttribute _ _ _ (steppingText.chars.take 39)
    (steppingText.chars.drop 50) hitem .self (by decide +kernel) (by decide +kernel)
    (by decide +kernel) (fun c hc => ?_) (fun c hc => ?_) (by decide) 1 _ ⟨2, 18⟩ 50 rfl
    hcursor (by decide) (by decide)
  · rw [hbefore] at hc
    cases hc
    rfl
  · rw [hafter] at hc
    cases hc
    rfl

end Document

end ColorTheme

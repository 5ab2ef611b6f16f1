import ColorTheme.Editor.Cursor
import ColorTheme.Proofs.Editor.Place
import ColorTheme.Proofs.Text.Quoted
import Mathlib.Data.List.TakeWhile

/-!
# The path under the cursor and its segments

* `CursorPath.IsRun` : the path characters around a place of a text, as far as they go.
* `CursorPath.existsUnique_isRun`, `Document.pathAt?_eq_some_iff` : there is one such run at each
  place, and it is what is found there, if there is more to it than dots.
* `segmentsThrough_append` : the segments up to the cursor are those that end before it, and the
  one that it is in or at the end of.
* `CursorPath.Stops`, `CursorPath.exists_stops` : so they are the shortest part of the path that
  ends at a dot, or at the end, and not in front of the cursor.
* `Document.exists_path_of_cut` : of words with dots between them, those up to the one that the
  cursor is in or at an end of.
-/

set_option autoImplicit false

namespace ColorTheme

variable {cs : List Char} {index : Nat} {path : CursorPath}

/-! ## Runs of path characters -/

/-- A run that nothing continues is all that is taken. -/
theorem takeWhile_run {p : Char → Bool} {run rest : List Char} (hrun : ∀ c ∈ run, p c = true)
    (hrest : ∀ c, rest.head? = some c → p c = false) : (run ++ rest).takeWhile p = run := by
  rw [List.takeWhile_append_of_pos hrun]
  cases rest with
  | nil => exact List.append_nil run
  | cons c rest => rw [List.takeWhile_cons_of_neg (by simp [hrest c rfl]), List.append_nil]

/-- What is left has another character at its head. -/
theorem eq_false_of_head?_dropWhile {p : Char → Bool} {c : Char}
    (h : (cs.dropWhile p).head? = some c) : p c = false := by
  have hnot := List.head?_dropWhile_not p cs
  rwa [h] at hnot

namespace CursorPath

/-- What stands around a place of a text, as far as there are path characters on both sides. -/
structure IsRun (cs : List Char) (index : Nat) (path : CursorPath) : Prop where
  chars : ∀ c ∈ path.text, isPathChar c = true
  within : path.cursor ≤ path.text.length
  cut : ∃ before after, cs = before ++ path.text ++ after ∧ index = before.length + path.cursor ∧
    (∀ c, before.getLast? = some c → isPathChar c = false) ∧
    ∀ c, after.head? = some c → isPathChar c = false

/-- The path characters on both sides of a place. -/
def around (cs : List Char) (index : Nat) : CursorPath :=
  let left := ((cs.take index).reverse.takeWhile isPathChar).reverse
  ⟨left ++ (cs.drop index).takeWhile isPathChar, left.length⟩

theorem isRun_around (h : index ≤ cs.length) : IsRun cs index (around cs index) where
  chars := by
    refine List.forall_mem_append.2 ⟨fun c hc => ?_, fun c hc => List.mem_takeWhile_imp hc⟩
    exact List.mem_takeWhile_imp (List.mem_reverse.1 hc)
  within := by
    unfold around
    rw [List.length_append]
    exact Nat.le_add_right _ _
  cut := by
    refine ⟨((cs.take index).reverse.dropWhile isPathChar).reverse,
      (cs.drop index).dropWhile isPathChar, ?_, ?_, fun c hc => ?_, fun c hc => ?_⟩
    · unfold around
      rw [← List.append_assoc, ← List.reverse_append, List.takeWhile_append_dropWhile,
        List.reverse_reverse, List.append_assoc, List.takeWhile_append_dropWhile,
        List.take_append_drop]
    · unfold around
      rw [← List.length_append, ← List.reverse_append, List.takeWhile_append_dropWhile,
        List.reverse_reverse, List.length_take, Nat.min_eq_left h]
    · rw [List.getLast?_reverse] at hc
      exact eq_false_of_head?_dropWhile hc
    · exact eq_false_of_head?_dropWhile hc

/-- A run is told by the place that it is around. -/
theorem IsRun.eq_around (h : IsRun cs index path) : path = around cs index := by
  obtain ⟨before, after, rfl, rfl, hbefore, hafter⟩ := h.cut
  obtain ⟨left, right, htext, hcursor⟩ : ∃ left right, path.text = left ++ right ∧
      path.cursor = left.length :=
    ⟨path.text.take path.cursor, path.text.drop path.cursor, (List.take_append_drop _ _).symm,
      (List.length_take_of_le h.within).symm⟩
  have hchars := h.chars
  rw [htext, List.forall_mem_append] at hchars
  have hcut : before ++ path.text ++ after = (before ++ left) ++ (right ++ after) := by
    rw [htext]
    simp only [List.append_assoc]
  have hleft : ((before ++ left).reverse.takeWhile isPathChar).reverse = left := by
    rw [List.reverse_append, takeWhile_run (by simpa using hchars.1) (by simpa using hbefore),
      List.reverse_reverse]
  have hright : (right ++ after).takeWhile isPathChar = right := takeWhile_run hchars.2 hafter
  unfold around
  rw [hcut, hcursor, ← List.length_append, List.take_left, List.drop_left, hleft, hright]
  dsimp only
  rw [← htext, ← hcursor]

/-- **There is one run around each place of a text.** -/
theorem existsUnique_isRun (h : index ≤ cs.length) : ∃! path, IsRun cs index path :=
  ⟨around cs index, isRun_around h, fun _ hpath => hpath.eq_around⟩

end CursorPath

/-- **The run around the cursor is what is found**, if there is more to it than dots. -/
theorem Document.pathAt?_eq_some_iff {d : Document} {p : Position} :
    d.pathAt? p = some path ↔ ∃ index, d.charIndex? p = some index ∧
      CursorPath.IsRun d.chars index path ∧ ∃ c ∈ path.text, c ≠ '.' := by
  have hdots (path : CursorPath) :
      path.segments.all List.isEmpty = false ↔ ∃ c ∈ path.text, c ≠ '.' := by
    rw [← Bool.not_eq_true, CursorPath.segments, all_isEmpty_fields]
    simp only [not_forall, exists_prop, ne_eq]
  have hfound (index : Nat) : (if (CursorPath.around d.chars index).segments.all List.isEmpty then
      none else some (CursorPath.around d.chars index)) = some path ↔
      path = CursorPath.around d.chars index ∧ ∃ c ∈ path.text, c ≠ '.' := by
    rw [Option.ite_none_left_eq_some, Bool.not_eq_true, hdots, Option.some_inj]
    constructor
    · rintro ⟨hmore, rfl⟩
      exact ⟨rfl, hmore⟩
    · rintro ⟨rfl, hmore⟩
      exact ⟨hmore, rfl⟩
  unfold pathAt?
  rw [Option.bind_eq_some_iff]
  constructor
  · rintro ⟨index, hindex, h⟩
    obtain ⟨rfl, hmore⟩ := (hfound index).1 h
    exact ⟨index, hindex, CursorPath.isRun_around (le_length_of_charIndex? hindex), hmore⟩
  · rintro ⟨index, hindex, hrun, hmore⟩
    exact ⟨index, hindex, (hfound index).2 ⟨hrun.eq_around, hmore⟩⟩

/-! ## The segments up to the cursor -/

/-- **The segments up to the cursor** are those that end before it, and the one that it is in or at
the end of. -/
theorem segmentsThrough_append {cursor start : Nat} {front : List (List Char)}
    {segment : List Char} (behind : List (List Char))
    (hfront : start + (front.flatMap (· ++ ['.'])).length ≤ cursor)
    (hcursor : cursor ≤ start + (front.flatMap (· ++ ['.'])).length + segment.length) :
    segmentsThrough cursor start (front ++ segment :: behind) = front ++ [segment] := by
  induction front generalizing start with
  | nil =>
    rw [List.nil_append, segmentsThrough]
    exact if_pos hcursor
  | cons first front ih =>
    rw [List.flatMap_cons, List.length_append, List.length_append, List.length_singleton]
      at hfront hcursor
    rw [List.cons_append, segmentsThrough, if_neg (by omega), ih (by omega) (by omega)]
    rfl

/-- A place in segments with dots between them is in one of the segments, or at an end of it. -/
theorem exists_segment {segments : List (List Char)} (hne : segments ≠ []) {cursor : Nat}
    (h : cursor ≤ (joinFields '.' segments).length) :
    ∃ front segment behind, segments = front ++ segment :: behind ∧
      (front.flatMap (· ++ ['.'])).length ≤ cursor ∧
      cursor ≤ (front.flatMap (· ++ ['.'])).length + segment.length := by
  induction segments generalizing cursor with
  | nil => exact absurd rfl hne
  | cons first rest ih =>
    by_cases hfirst : cursor ≤ first.length
    · exact ⟨[], first, rest, rfl, Nat.zero_le _, by simpa using hfirst⟩
    · have hrest : rest ≠ [] := by
        rintro rfl
        exact hfirst h
      rw [joinFields_cons '.' first hrest, List.length_append, List.length_cons] at h
      have hbehind : cursor - first.length - 1 ≤ (joinFields '.' rest).length := by omega
      obtain ⟨front, segment, behind, rfl, hfront, hcursor⟩ := ih hrest hbehind
      refine ⟨first :: front, segment, behind, rfl, ?_, ?_⟩ <;>
        rw [List.flatMap_cons, List.length_append, List.length_append, List.length_singleton] <;>
        omega

namespace CursorPath

/-- The path may be cut behind its first `n` characters: these reach the cursor, and a dot or
nothing stands behind them. -/
structure Stops (path : CursorPath) (n : Nat) : Prop where
  reaches : path.cursor ≤ n
  ends : n = path.text.length ∨ path.text[n]? = some '.'

/-- **The segments up to the cursor are the shortest part of the path that ends at a dot or at the
end of the path and reaches the cursor.** -/
theorem exists_stops (h : path.cursor ≤ path.text.length) :
    ∃ n, path.Stops n ∧ (∀ m, path.Stops m → n ≤ m) ∧
      joinFields '.' path.throughCursor = path.text.take n ∧
      path.throughCursor <+: path.segments := by
  have hjoin : joinFields '.' path.segments = path.text := join_fields '.' path.text
  rw [← hjoin] at h
  obtain ⟨front, segment, behind, hsegments, hfront, hcursor⟩ :=
    exists_segment (fields_ne_nil '.' path.text) h
  rw [show fields '.' path.text = path.segments from rfl] at hsegments
  have hsegment : segment ∈ fields '.' path.text := by
    rw [show fields '.' path.text = path.segments from rfl, hsegments]
    simp
  have hundotted : '.' ∉ segment := not_mem_of_mem_fields hsegment
  have htext : path.text =
      front.flatMap (· ++ ['.']) ++ segment ++ behind.flatMap ('.' :: ·) := by
    rw [← hjoin, hsegments, joinFields_append_cons, List.append_assoc]
  have hthrough : path.throughCursor = front ++ [segment] := by
    unfold throughCursor
    rw [hsegments]
    exact segmentsThrough_append behind (by omega) (by omega)
  refine ⟨(front.flatMap (· ++ ['.']) ++ segment).length, ⟨?_, ?_⟩, fun m hm => ?_, ?_, ?_⟩
  · rwa [List.length_append]
  · rw [htext]
    cases behind with
    | nil => exact .inl (by simp)
    | cons second behind => exact .inr (by simp)
  · by_contra hlt
    obtain ⟨hreaches, hends⟩ := hm
    rw [List.length_append] at hlt
    have hinside : path.text[m]? = segment[m - (front.flatMap (· ++ ['.'])).length]? := by
      rw [htext, List.append_assoc, List.getElem?_append_right (by omega),
        List.getElem?_append_left (by omega)]
    rcases hends with hends | hends
    · rw [htext, List.length_append, List.length_append] at hends
      omega
    · rw [hinside] at hends
      exact hundotted (List.mem_of_getElem? hends)
  · rw [hthrough, joinFields_append_cons, htext, List.take_left, List.flatMap_nil,
      List.append_nil]
  · rw [hthrough, hsegments]
    exact ⟨behind, by simp⟩

/-- In front of a dot the cursor is at the end of a segment, behind it at the beginning of
another. -/
example : joinFields '.' (throughCursor ⟨"palette.low.x".toList, 7⟩) = "palette".toList ∧
    joinFields '.' (throughCursor ⟨"palette.low.x".toList, 8⟩) = "palette.low".toList := by decide

end CursorPath

/-! ## Words with dots between them -/

/-- A text that can stand between the dots of a path. -/
structure IsWord (word : List Char) : Prop where
  nonempty : word ≠ []
  chars : ∀ c ∈ word, isWordChar c = true

theorem IsWord.undotted {word : List Char} (h : IsWord word) : '.' ∉ word := by
  intro hdot
  have hword := h.chars '.' hdot
  revert hword
  decide

theorem isPathChar_of_mem_joinFields {c : Char} {words : List (List Char)}
    (hwords : ∀ word ∈ words, IsWord word) (hc : c ∈ joinFields '.' words) :
    isPathChar c = true := by
  rcases mem_joinFields hc with rfl | ⟨word, hword, hc⟩
  · rfl
  · rw [isPathChar, (hwords word hword).chars c hc, Bool.true_or]

/-- **Where words stand with dots between them**, and no path character next to them, these are
the segments of the path around a place in one of them, and those up to this one are the segments
up to the cursor. -/
theorem Document.exists_path_of_cut {d : Document} {p : Position} {before after : List Char}
    {front : List (List Char)} {word : List Char} {behind : List (List Char)} {n : Nat}
    (hwords : ∀ w ∈ front ++ word :: behind, IsWord w)
    (hcut : d.chars = before ++ joinFields '.' (front ++ word :: behind) ++ after)
    (hbefore : ∀ c, before.getLast? = some c → isPathChar c = false)
    (hafter : ∀ c, after.head? = some c → isPathChar c = false)
    (hindex : d.charIndex? p =
      some (before.length + ((front.flatMap (· ++ ['.'])).length + n)))
    (hn : n ≤ word.length) :
    ∃ path, d.pathAt? p = some path ∧ path.segments = front ++ word :: behind ∧
      path.throughCursor = front ++ [word] := by
  let path : CursorPath :=
    ⟨joinFields '.' (front ++ word :: behind), (front.flatMap (· ++ ['.'])).length + n⟩
  have hsegments : path.segments = front ++ word :: behind :=
    fields_joinFields (by simp) fun w hw => (hwords w hw).undotted
  have hcursor : path.cursor = (front.flatMap (· ++ ['.'])).length + n := rfl
  have hlength : path.text.length = (front.flatMap (· ++ ['.'])).length + (word.length +
      (behind.flatMap ('.' :: ·)).length) := by
    show (joinFields '.' (front ++ word :: behind)).length = _
    rw [joinFields_append_cons, List.length_append, List.length_append]
  have hword : IsWord word := hwords word (by simp)
  obtain ⟨c, rest, hc⟩ := List.exists_cons_of_ne_nil hword.nonempty
  have hmore : c ∈ path.text := by
    show c ∈ joinFields '.' (front ++ word :: behind)
    rw [joinFields_append_cons, hc]
    simp
  have hdot : c ≠ '.' := by
    rintro rfl
    exact hword.undotted (hc ▸ List.mem_cons_self)
  have hrun : CursorPath.IsRun d.chars (before.length + path.cursor) path :=
    ⟨fun c hc => isPathChar_of_mem_joinFields hwords hc,
      by omega, before, after, hcut, rfl, hbefore, hafter⟩
  refine ⟨path, pathAt?_eq_some_iff.2 ⟨_, hindex, hrun, c, hmore, hdot⟩, hsegments, ?_⟩
  unfold CursorPath.throughCursor
  rw [hsegments]
  exact segmentsThrough_append behind (by omega) (by omega)

end ColorTheme

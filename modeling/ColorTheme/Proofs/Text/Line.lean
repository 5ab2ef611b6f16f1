import ColorTheme.Proofs.Text.Slice
import ColorTheme.Text.Position
import Mathlib.Data.List.Induction
import Mathlib.Data.List.TakeWhile

/-!
# Lines and characters

* `Position.behind` : where one stands behind a text, as many lines down as it has line feeds, and
  as many characters to the right as stand behind the last of them.
* `Position.ofOffset_append` : the position of a byte offset is that behind the text before it.
* `Position.behind_append` : a text without a line feed leads on along its line, and
  `Position.line_lt_behind_append` : any other to a later one.
* `Position.ofOffset_upTo` : so positions are in the order of their offsets, and
  `Position.ofOffset_stop` : a part without a line feed is as long as it reaches on its line.
-/

set_option autoImplicit false

namespace ColorTheme

namespace Position

/-- `p` stands on an earlier line than `q`, or on the same and before it. -/
def Before (p q : Position) : Prop :=
  p.line < q.line ∨ p.line = q.line ∧ p.character < q.character

/-- `p` stands on an earlier line than `q`, or on the same and not behind it. -/
def UpTo (p q : Position) : Prop :=
  p.line < q.line ∨ p.line = q.line ∧ p.character ≤ q.character

instance (p q : Position) : Decidable (p.UpTo q) := inferInstanceAs (Decidable (_ ∨ _))

/-- The position so many characters further to the right. -/
def right (p : Position) (n : Nat) : Position := ⟨p.line, p.character + n⟩

/-- Where one stands behind a text. -/
def behind (cs : List Char) : Position :=
  ⟨cs.count '\n', (cs.reverse.takeWhile (· != '\n')).length⟩

/-- Where one stands behind one more character. -/
def step (p : Position) (c : Char) : Position :=
  if c = '\n' then ⟨p.line + 1, 0⟩ else p.right 1

variable {p q r : Position} {cs before inside after : List Char} {a b : Nat}

theorem UpTo.refl (p : Position) : p.UpTo p := .inr ⟨rfl, Nat.le_refl _⟩

theorem UpTo.trans (h : p.UpTo q) (h' : q.UpTo r) : p.UpTo r := by
  unfold UpTo at *
  omega

theorem UpTo.antisymm (h : p.UpTo q) (h' : q.UpTo p) : p = q := by
  cases p
  cases q
  simp only [UpTo, Position.mk.injEq] at *
  omega

theorem upTo_total (p q : Position) : p.UpTo q ∨ q.UpTo p := by
  unfold UpTo
  omega

theorem origin_upTo (p : Position) : UpTo ⟨0, 0⟩ p := by
  unfold UpTo
  dsimp only
  omega

/-- Whoever can go to the right from a position stood before the place that follows. -/
theorem UpTo.of_right {n : Nat} (h : (p.right n).UpTo q) : p.UpTo q := by
  unfold UpTo right at *
  dsimp only at h
  omega

/-! ## Behind a text -/

theorem foldl_step (cs : List Char) : cs.foldl step ⟨0, 0⟩ = behind cs := by
  induction cs using List.reverseRecOn with
  | nil => rfl
  | append_singleton cs c ih =>
    rw [List.foldl_append, List.foldl_cons, List.foldl_nil, ih]
    by_cases hc : c = '\n'
    · simp [step, behind, hc]
    · simp [step, behind, right, hc]

theorem advance_append (start : Position) (before after : List Char) :
    start.advance (before ++ after) (byteLength before) = before.foldl step start := by
  induction before generalizing start with
  | nil =>
    cases after with
    | nil => rfl
    | cons c after => rfl
  | cons c before ih =>
    have hc := c.utf8Size_pos
    obtain ⟨n, hn⟩ : ∃ n, byteLength (c :: before) = n + 1 :=
      ⟨byteLength (c :: before) - 1, by rw [byteLength_cons]; omega⟩
    have hrest : n + 1 - c.utf8Size = byteLength before := by
      rw [byteLength_cons] at hn
      omega
    have hle : c.utf8Size ≤ n + 1 := by
      rw [byteLength_cons] at hn
      omega
    rw [hn, List.cons_append, advance, if_pos hle, hrest]
    exact ih _

/-- **The position of a byte offset is that behind the text before it.** -/
theorem ofOffset_append (before after : List Char) :
    ofOffset (before ++ after) (byteLength before) = behind before := by
  unfold ofOffset
  rw [advance_append, foldl_step]

/-- A text without a line feed leads on along its line. -/
theorem behind_append (h : '\n' ∉ inside) :
    behind (before ++ inside) = (behind before).right inside.length := by
  have hinside : ∀ c ∈ inside.reverse, (c != '\n') = true := by
    intro c hc
    rw [bne_iff_ne]
    rintro rfl
    exact h (List.mem_reverse.1 hc)
  unfold behind right
  rw [List.count_append, List.count_eq_zero_of_not_mem h, List.reverse_append,
    List.takeWhile_append_of_pos hinside, List.length_append, List.length_reverse]
  simp only [Position.mk.injEq]
  omega

/-- A text with a line feed leads to a later line. -/
theorem line_lt_behind_append (h : '\n' ∈ inside) :
    (behind before).line < (behind (before ++ inside)).line := by
  have hpos := List.count_pos_iff.2 h
  unfold behind
  dsimp only
  rw [List.count_append]
  omega

/-- One stands never further to the front behind a longer text. -/
theorem behind_upTo_append (before inside : List Char) :
    (behind before).UpTo (behind (before ++ inside)) := by
  by_cases h : '\n' ∈ inside
  · exact .inl (line_lt_behind_append h)
  · rw [behind_append h]
    exact .inr ⟨rfl, Nat.le_add_right _ _⟩

theorem ofOffset_upTo (ha : IsBoundary cs a) (hb : IsBoundary cs b) (hab : a ≤ b) :
    (ofOffset cs a).UpTo (ofOffset cs b) := by
  obtain ⟨before, inside, after, rfl, rfl, rfl⟩ := exists_cut ha hb hab
  rw [ofOffset_append, List.append_assoc, ofOffset_append]
  exact behind_upTo_append before inside

/-- A part of a text without a line feed ends on its line, as many characters behind its start as
it has. -/
theorem ofOffset_stop {s : Span} (h : s.slice? cs = some inside) (hline : '\n' ∉ inside) :
    ofOffset cs s.stop = (ofOffset cs s.start).right inside.length := by
  obtain ⟨before, after, rfl, hstart, hstop⟩ := Span.slice?_eq_some_iff.1 h
  rw [← hstop, ofOffset_append, behind_append hline, ← hstart, List.append_assoc, ofOffset_append]

end Position

end ColorTheme

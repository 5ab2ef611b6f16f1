import ColorTheme.Text.Bytes

/-!
# Spans

A `Span` is a half-open range of byte offsets into a document.

* `Span.merge` covers both of its arguments.
* `Span.slice?` reads the text under a span.
-/

set_option autoImplicit false

namespace ColorTheme

/-- The bytes from `start` up to, and not including, `stop`. -/
structure Span where
  start : Nat
  stop : Nat
deriving Repr, DecidableEq, Inhabited

namespace Span

/-- The empty span at `offset`. -/
def point (offset : Nat) : Span := ⟨offset, offset⟩

/-- The smallest span that covers both `a` and `b`. -/
def merge (a b : Span) : Span := ⟨min a.start b.start, max a.stop b.stop⟩

/-- The number of bytes under a span. -/
def length (s : Span) : Nat := s.stop - s.start

/-- No byte lies under the span. -/
def isEmpty (s : Span) : Bool := s.start == s.stop

/-- Byte `offset` lies under the span. -/
def contains (s : Span) (offset : Nat) : Bool := decide (s.start ≤ offset ∧ offset < s.stop)

/-- The text under the span, when the span lies in the text and cuts no character. -/
def slice? (s : Span) (text : List Char) : Option (List Char) := sliceBytes? text s.start s.stop

/-- The span as `start..stop`. -/
def display (s : Span) : String := toString s.start ++ ".." ++ toString s.stop

theorem contains_iff (s : Span) (offset : Nat) :
    s.contains offset = true ↔ s.start ≤ offset ∧ offset < s.stop := by simp [contains]

theorem start_merge_le (a b : Span) : (a.merge b).start ≤ a.start := Nat.min_le_left _ _

theorem stop_le_merge (a b : Span) : a.stop ≤ (a.merge b).stop := Nat.le_max_left _ _

end Span

end ColorTheme

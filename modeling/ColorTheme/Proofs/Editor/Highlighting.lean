import ColorTheme.Proofs.Editor.Words
import ColorTheme.Proofs.Text.Line
import Mathlib.Data.List.Pairwise

/-!
# Highlighting read back

* `decodeHighlights` : what an editor makes of the numbers it is sent.  It adds up differences, so
  it knows where a word stands from the words before it.
* `decode_encode` : it gets the words back, if `Steady` none is placed before the last.
* `right_upTo_highlights` : a word ends before the next one begins.
* `highlighting_of_source` : so an editor sees the words that `Item.Shows` names, in the order of
  the source and none across another, in whatever order they were met.
-/

set_option autoImplicit false

namespace ColorTheme

/-! ## Numbers -/

/-- The mark, or none, that has the given set of bits. -/
def HighlightMark.ofBits? (bits : Nat) : Option (Option HighlightMark) :=
  (none :: HighlightMark.all.map some).find? fun mark =>
    (mark.map HighlightMark.bits).getD 0 == bits

/-- The words that the numbers stand for, five for each, if the last one stood at `last`. -/
def decodeHighlights (last : Position) : List Nat → Option (List PlacedHighlight)
  | [] => some []
  | line :: character :: length :: kind :: bits :: rest =>
    let position : Position :=
      if line = 0 then last.right character else ⟨last.line + line, character⟩
    match HighlightKind.all[kind]?, HighlightMark.ofBits? bits, decodeHighlights position rest with
    | some kind, some mark, some words => some (⟨position, length, kind, mark⟩ :: words)
    | _, _, _ => none
  | _ => none

/-- Each word is placed on the line of the one before it or on a later one, and on that line not
before it; so no difference of lines or characters falls below zero.  The last one stood at
`last`. -/
def Steady (last : Position) : List PlacedHighlight → Prop
  | [] => True
  | h :: rest =>
    last.line ≤ h.position.line ∧
      (h.position.line - last.line = 0 → last.character ≤ h.position.character) ∧
      Steady h.position rest

theorem HighlightKind.all_index (kind : HighlightKind) :
    HighlightKind.all[kind.index]? = some kind := by
  cases kind <;> rfl

theorem HighlightMark.ofBits?_bits (mark : Option HighlightMark) :
    HighlightMark.ofBits? ((mark.map HighlightMark.bits).getD 0) = some mark := by
  rcases mark with - | (- | -) <;> rfl

/-- **The words are read back from their numbers.** -/
theorem decode_encode {last : Position} {hs : List PlacedHighlight} (h : Steady last hs) :
    decodeHighlights last (encodeHighlights last hs) = some hs := by
  induction hs generalizing last with
  | nil => rfl
  | cons first rest ih =>
    obtain ⟨hline, hcharacter, hrest⟩ := h
    have hposition : (if first.position.line - last.line = 0 then
          last.right (if first.position.line - last.line == 0 then
            first.position.character - last.character else first.position.character)
        else ⟨last.line + (first.position.line - last.line),
          if first.position.line - last.line == 0 then
            first.position.character - last.character else first.position.character⟩) =
        first.position := by
      obtain ⟨⟨line, character⟩, length, kind, mark⟩ := first
      dsimp only at *
      split
      · rename_i heq
        have hle := hcharacter heq
        simp only [heq, Position.right, beq_self_eq_true, if_true, Position.mk.injEq]
        omega
      · rename_i hne
        simp only [beq_iff_eq, hne, if_false, Position.mk.injEq, and_true]
        omega
    simp only [encodeHighlights, decodeHighlights, hposition, HighlightKind.all_index,
      HighlightMark.ofBits?_bits, ih hrest]

/-- Words that are placed one behind the other are steady. -/
theorem steady_of_pairwise {last : Position} {hs : List PlacedHighlight}
    (hfirst : ∀ h ∈ hs, last.UpTo h.position)
    (h : hs.Pairwise fun a b => a.position.UpTo b.position) : Steady last hs := by
  induction hs generalizing last with
  | nil => trivial
  | cons first rest ih =>
    obtain ⟨hrest, h⟩ := List.pairwise_cons.1 h
    have hupTo := hfirst first List.mem_cons_self
    unfold Position.UpTo at hupTo
    refine ⟨?_, fun heq => ?_, ih hrest h⟩
    · omega
    · omega

/-! ## Places -/

/-- A word with its place in the text, if it stands there. -/
def Highlight.place? (cs : List Char) (w : Highlight) : Option PlacedHighlight :=
  (w.span.slice? cs).map fun text => ⟨.ofOffset cs w.span.start, text.length, w.kind, w.mark⟩

theorem highlights_eq (table : BlockTable) (source : String) :
    highlights table source = (highlightsOfItems table (Body.read source).items).filterMap
      (Highlight.place? source.toList) := rfl

/-- What is said of a word is what it is: where it begins and ends, on one line, and its kind. -/
structure PlacedHighlight.Tells (cs text : List Char) (w : Highlight) (h : PlacedHighlight) :
    Prop where
  slice : w.span.slice? cs = some text
  start : h.position = .ofOffset cs w.span.start
  stop : h.position.right h.length = .ofOffset cs w.span.stop
  length : h.length = text.length
  nonempty : text ≠ []
  line : '\n' ∉ text
  kind : h.kind = w.kind
  mark : h.mark = w.mark

variable {cs text : List Char} {w : Highlight} {h : PlacedHighlight}

theorem PlacedHighlight.Tells.place? (htells : h.Tells cs text w) : w.place? cs = some h := by
  obtain ⟨position, length, kind, mark⟩ := h
  obtain ⟨hslice, rfl, -, rfl, -, -, rfl, rfl⟩ := htells
  rw [Highlight.place?, hslice]
  rfl

theorem Highlight.Written.tells (hwritten : w.Written cs text) (hplace : w.place? cs = some h) :
    h.Tells cs text w := by
  have hstop := Position.ofOffset_stop hwritten.slice hwritten.line
  rw [Highlight.place?, hwritten.slice] at hplace
  cases hplace
  exact ⟨hwritten.slice, rfl, hstop.symm, rfl, hwritten.nonempty, hwritten.line, rfl, rfl⟩

/-- **The words of a text to highlight are those that its items show.** -/
theorem mem_highlights_iff (table : BlockTable) (source : String) (h : PlacedHighlight) :
    h ∈ highlights table source ↔
      ∃ item ∈ spreadAll (Body.read source).items, ∃ text w,
        item.Shows table text w ∧ h.Tells source.toList text w := by
  rw [highlights_eq, List.mem_filterMap]
  constructor
  · rintro ⟨w, hw, hplace⟩
    obtain ⟨item, hitem, text, hshows, hwritten⟩ := exists_shows hw
    exact ⟨item, hitem, text, w, hshows, hwritten.tells hplace⟩
  · rintro ⟨item, hitem, text, w, hshows, htells⟩
    exact ⟨w, mem_highlights_of_shows hitem hshows, htells.place?⟩

/-- **A word ends before the next one begins.** -/
theorem right_upTo_highlights (table : BlockTable) (source : String) :
    (highlights table source).Pairwise fun a b =>
      (a.position.right a.length).UpTo b.position := by
  rw [highlights_eq, List.pairwise_filterMap]
  refine (apart_highlightsOfItems table source).imp_of_mem ?_
  intro v w hv hw hbefore a ha b hb
  obtain ⟨-, -, text, -, hvWritten⟩ := exists_shows hv
  obtain ⟨-, -, text', -, hwWritten⟩ := exists_shows hw
  rw [(hvWritten.tells ha).stop, (hwWritten.tells hb).start]
  exact Position.ofOffset_upTo (isBoundary_of_slice? hvWritten.slice).2
    (isBoundary_of_slice? hwWritten.slice).1 hbefore

theorem length_pos_of_mem_highlights {table : BlockTable} {source : String}
    (hmem : h ∈ highlights table source) : 0 < h.length := by
  obtain ⟨-, -, text, w, -, htells⟩ := (mem_highlights_iff table source h).1 hmem
  rw [htells.length]
  exact List.length_pos_iff.2 htells.nonempty

/-- Every word begins before the next one. -/
theorem before_highlights (table : BlockTable) (source : String) :
    (highlights table source).Pairwise fun a b => a.position.Before b.position := by
  refine (right_upTo_highlights table source).imp_of_mem ?_
  intro a b ha _ hupTo
  have hpos := length_pos_of_mem_highlights ha
  unfold Position.UpTo Position.right at hupTo
  unfold Position.Before
  dsimp only at hupTo
  omega

/-- No two words begin at the same place. -/
theorem eq_of_position_eq {table : BlockTable} {source : String} {a b : PlacedHighlight}
    (ha : a ∈ highlights table source) (hb : b ∈ highlights table source)
    (heq : a.position = b.position) : a = b := by
  have hne : (highlights table source).Pairwise fun a b => a.position ≠ b.position := by
    refine (before_highlights table source).imp fun {a b} hbefore heq => ?_
    rw [heq] at hbefore
    unfold Position.Before at hbefore
    omega
  have hsymm : Std.Symm fun a b : PlacedHighlight => a.position ≠ b.position :=
    ⟨fun _ _ h => h.symm⟩
  by_contra hab
  exact hne.forall ha hb hab heq

/-- The order in which words are brought to be told. -/
def PlacedHighlight.upTo (a b : PlacedHighlight) : Bool := decide (a.position.UpTo b.position)

/-- Words met in any order are brought into that of the source by their places. -/
theorem mergeSort_eq_highlights {table : BlockTable} {source : String} {hs : List PlacedHighlight}
    (hperm : hs.Perm (highlights table source)) :
    hs.mergeSort PlacedHighlight.upTo = highlights table source := by
  have htrans (a b c : PlacedHighlight) (hab : a.upTo b = true) (hbc : b.upTo c = true) :
      a.upTo c = true :=
    decide_eq_true ((of_decide_eq_true hab).trans (of_decide_eq_true hbc))
  have htotal (a b : PlacedHighlight) : (a.upTo b || b.upTo a) = true := by
    simpa [PlacedHighlight.upTo] using Position.upTo_total a.position b.position
  have hsorted := List.pairwise_mergeSort htrans htotal hs
  have hperm := (List.mergeSort_perm hs PlacedHighlight.upTo).trans hperm
  refine List.Perm.eq_of_pairwise ?_ hsorted ?_ hperm
  · intro a b ha hb hab hba
    refine eq_of_position_eq (hperm.subset ha) hb ?_
    exact (of_decide_eq_true hab).antisymm (of_decide_eq_true hba)
  · refine (right_upTo_highlights table source).imp fun hupTo => ?_
    exact decide_eq_true hupTo.of_right

/-- What an editor sees that is sent `numbers` for a text. -/
structure Highlighting (table : BlockTable) (source : String) (numbers : List Nat)
    (hs : List PlacedHighlight) : Prop where
  decoded : decodeHighlights ⟨0, 0⟩ numbers = some hs
  /-- The numbers are differences of places, none of which is cut off at zero. -/
  steady : Steady ⟨0, 0⟩ hs
  increasing : hs.Pairwise fun a b => a.position.Before b.position
  nonempty : ∀ h ∈ hs, 0 < h.length
  apart : hs.Pairwise fun a b =>
    a.position.line = b.position.line → a.position.character + a.length ≤ b.position.character
  /-- The words are those that the items of the document show, each told as it is. -/
  words : ∀ h, h ∈ hs ↔ ∃ item ∈ spreadAll (Body.read source).items, ∃ text w,
    item.Shows table text w ∧ h.Tells source.toList text w
  /-- They may be met with the blocks of each body before its attributes, and then be sorted. -/
  sorted : ((blocksFirst table (Body.read source).items).filterMap
    (Highlight.place? source.toList)).mergeSort PlacedHighlight.upTo = hs

/-- **An editor sees the words of a text as they are.** -/
theorem highlighting_of_source (table : BlockTable) (source : String) :
    Highlighting table source (encodeHighlights ⟨0, 0⟩ (highlights table source))
      (highlights table source) := by
  have hends := right_upTo_highlights table source
  have hsteady : Steady ⟨0, 0⟩ (highlights table source) :=
    steady_of_pairwise (fun h _ => Position.origin_upTo h.position)
      (hends.imp Position.UpTo.of_right)
  constructor
  case decoded => exact decode_encode hsteady
  case steady => exact hsteady
  case increasing => exact before_highlights table source
  case nonempty => exact fun h hmem => length_pos_of_mem_highlights hmem
  case apart =>
    refine hends.imp fun {a b} hupTo hline => ?_
    unfold Position.UpTo Position.right at hupTo
    dsimp only at hupTo
    omega
  case words => exact mem_highlights_iff table source
  case sorted => exact mergeSort_eq_highlights ((blocksFirst_perm _).filterMap _)

end ColorTheme

import ColorTheme.Text.Span

/-!
# Texts between byte offsets

* `IsBoundary` : a byte offset stands between two characters of a text, or at one of its ends.
* `isBoundary_iff` : there, and only there, the text falls into two parts.
* `exists_cut` : two such offsets in order cut a text into three parts.
* `Span.slice?_eq_some_iff` : the text under a span is the part between its ends.
-/

set_option autoImplicit false

namespace ColorTheme

variable {cs before inside after : List Char} {n a b : Nat}

theorem byteLength_pos (h : cs ≠ []) : 0 < byteLength cs := by
  cases cs with
  | nil => exact absurd rfl h
  | cons c cs =>
    rw [byteLength_cons]
    have := c.utf8Size_pos
    omega

theorem splitBytes?_eq_some_iff :
    splitBytes? n cs = some (before, after) ↔ cs = before ++ after ∧ byteLength before = n := by
  constructor
  · intro h
    obtain ⟨happend, hlength⟩ := append_of_splitBytes? h
    exact ⟨happend.symm, hlength⟩
  · rintro ⟨rfl, rfl⟩
    exact splitBytes?_byteLength_append before after

/-- Byte `n` of the text is no byte inside a character, and not past the end. -/
def IsBoundary (cs : List Char) (n : Nat) : Prop := (splitBytes? n cs).isSome = true

instance (cs : List Char) (n : Nat) : Decidable (IsBoundary cs n) :=
  inferInstanceAs (Decidable (_ = true))

theorem isBoundary_iff :
    IsBoundary cs n ↔ ∃ before after, cs = before ++ after ∧ byteLength before = n := by
  unfold IsBoundary
  rw [Option.isSome_iff_exists]
  constructor
  · rintro ⟨⟨before, after⟩, h⟩
    exact ⟨before, after, splitBytes?_eq_some_iff.1 h⟩
  · rintro ⟨before, after, h⟩
    exact ⟨(before, after), splitBytes?_eq_some_iff.2 h⟩

/-- Of two beginnings of a text, the shorter one is a beginning of the longer one. -/
theorem exists_append_of_byteLength_le {after' before' : List Char}
    (h : before ++ after = before' ++ after') (hle : byteLength before ≤ byteLength before') :
    ∃ inside, before' = before ++ inside ∧ after = inside ++ after' := by
  rcases List.append_eq_append_iff.1 h with ⟨inside, hbefore, hafter⟩ | ⟨rest, hbefore, hafter⟩
  · exact ⟨inside, hbefore, hafter⟩
  · cases rest with
    | nil => exact ⟨[], by simpa using hbefore.symm, by simpa using hafter.symm⟩
    | cons c rest =>
      have hpos := byteLength_pos (List.cons_ne_nil c rest)
      rw [hbefore, byteLength_append] at hle
      omega

/-- **Two boundaries in order cut a text into three parts.** -/
theorem exists_cut (ha : IsBoundary cs a) (hb : IsBoundary cs b) (hab : a ≤ b) :
    ∃ before inside after, cs = before ++ inside ++ after ∧ byteLength before = a ∧
      byteLength (before ++ inside) = b := by
  obtain ⟨before, behind, hcs, rfl⟩ := isBoundary_iff.1 ha
  obtain ⟨front, after, hcs', rfl⟩ := isBoundary_iff.1 hb
  obtain ⟨inside, rfl, -⟩ := exists_append_of_byteLength_le (hcs.symm.trans hcs') hab
  exact ⟨before, inside, after, hcs', rfl, rfl⟩

/-- **The text under a span is the part between its ends.** -/
theorem Span.slice?_eq_some_iff {s : Span} :
    s.slice? cs = some inside ↔ ∃ before after, cs = before ++ inside ++ after ∧
      byteLength before = s.start ∧ byteLength (before ++ inside) = s.stop := by
  unfold Span.slice? sliceBytes?
  constructor
  · intro h
    split at h
    · rename_i hle
      obtain ⟨⟨before, behind⟩, hbehind, h⟩ := Option.bind_eq_some_iff.1 h
      obtain ⟨⟨part, after⟩, hafter, hpart⟩ := Option.map_eq_some_iff.1 h
      obtain rfl : part = inside := hpart
      obtain ⟨rfl, hstart⟩ := splitBytes?_eq_some_iff.1 hbehind
      obtain ⟨rfl, hstop⟩ := splitBytes?_eq_some_iff.1 hafter
      refine ⟨before, after, (List.append_assoc _ _ _).symm, hstart, ?_⟩
      rw [byteLength_append]
      omega
    · cases h
  · rintro ⟨before, after, rfl, hstart, hstop⟩
    rw [byteLength_append] at hstop
    have hinside : s.stop - s.start = byteLength inside := by omega
    rw [if_pos (by omega), hinside, ← hstart, List.append_assoc, splitBytes?_byteLength_append,
      Option.bind_some]
    dsimp only
    rw [splitBytes?_byteLength_append, Option.map_some]

end ColorTheme

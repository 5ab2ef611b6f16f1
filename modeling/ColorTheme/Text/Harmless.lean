/-!
# Texts that leave terminals alone

Some controls steer a terminal instead of being shown on it.  Where a log is printed they are
written out by their code points.

* `harmless` writes them out.
* `isSteering_of_mem_harmless` : none of them is left.
-/

set_option autoImplicit false

namespace ColorTheme

/-- A character that steers terminals: bell, backspace, form feed, escape and delete, and the
controls above ASCII. -/
def isSteering (c : Char) : Bool :=
  ['\x07', '\x08', '\x0c', '\x1b', '\x7f'].contains c || (128 ≤ c.toNat && c.toNat < 160)

/-- A character that does not steer anything, or the two digits of its code point. -/
def writtenOut (c : Char) : List Char :=
  let digits := [Nat.digitChar (c.toNat / 16 % 16), Nat.digitChar (c.toNat % 16)]
  if !isSteering c then [c]
  else if c.toNat < 128 then '\\' :: 'x' :: digits
  else '\\' :: 'u' :: '\x7b' :: digits ++ ['\x7d']

/-- The text without anything that steers. -/
def harmless (text : String) : String := String.ofList (text.toList.flatMap writtenOut)

theorem isSteering_digitChar : ∀ n < 16, isSteering (Nat.digitChar n) = false := by decide

theorem isSteering_of_mem_writtenOut {c d : Char} (h : d ∈ writtenOut c) :
    isSteering d = false := by
  have high := isSteering_digitChar (c.toNat / 16 % 16) (Nat.mod_lt _ (by decide))
  have low := isSteering_digitChar (c.toNat % 16) (Nat.mod_lt _ (by decide))
  unfold writtenOut at h
  split at h
  · rename_i plain
    rw [List.mem_singleton] at h
    subst h
    simpa using plain
  · split at h
    · simp only [List.mem_cons, List.not_mem_nil, or_false] at h
      rcases h with h | h | h | h
      · subst h; rfl
      · subst h; rfl
      · rw [h]; exact high
      · rw [h]; exact low
    · simp only [List.cons_append, List.nil_append, List.mem_cons, List.not_mem_nil,
        or_false] at h
      rcases h with h | h | h | h | h | h
      · subst h; rfl
      · subst h; rfl
      · subst h; rfl
      · rw [h]; exact high
      · rw [h]; exact low
      · subst h; rfl

theorem isSteering_of_mem_harmless {text : String} {c : Char} (h : c ∈ (harmless text).toList) :
    isSteering c = false := by
  simp only [harmless, String.toList_ofList, List.mem_flatMap] at h
  obtain ⟨_, _, h⟩ := h
  exact isSteering_of_mem_writtenOut h

end ColorTheme

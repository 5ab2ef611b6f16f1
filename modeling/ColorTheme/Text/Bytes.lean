/-!
# Text measured in UTF-8 bytes

Offsets into a document count bytes, while everything that reads a document works on characters.

* `byteLength` is the number of bytes of a list of characters.
* `splitBytes?` cuts a text at a byte offset, and fails inside a character or past the end.
* `sliceBytes?` is the text between two offsets.
* `splitBytes?_byteLength_append` : cutting `a ++ b` after the bytes of `a` gives `a` and `b`.
* `append_of_splitBytes?` : the two parts of a cut, put together, are the text.
-/

set_option autoImplicit false

namespace ColorTheme

/-- The number of bytes that `cs` takes in UTF-8. -/
def byteLength (cs : List Char) : Nat := cs.foldr (fun c bytes => c.utf8Size + bytes) 0

@[simp] theorem byteLength_nil : byteLength [] = 0 := rfl

@[simp] theorem byteLength_cons (c : Char) (cs : List Char) :
    byteLength (c :: cs) = c.utf8Size + byteLength cs := by simp [byteLength]

@[simp] theorem byteLength_append (a b : List Char) :
    byteLength (a ++ b) = byteLength a + byteLength b := by
  induction a with
  | nil => simp
  | cons c a ih => simp [ih, Nat.add_assoc]

/-- The characters before byte `n` and those from it on; nothing when byte `n` is inside a
character or past the end. -/
def splitBytes? : Nat → List Char → Option (List Char × List Char)
  | 0, cs => some ([], cs)
  | _ + 1, [] => none
  | n + 1, c :: cs =>
    if c.utf8Size ≤ n + 1 then
      (splitBytes? (n + 1 - c.utf8Size) cs).map fun (before, after) => (c :: before, after)
    else none

/-- The text from byte `start` up to byte `stop`; nothing when the two are out of order, out of
bounds or inside a character. -/
def sliceBytes? (cs : List Char) (start stop : Nat) : Option (List Char) :=
  if start ≤ stop then
    (splitBytes? start cs).bind fun (_, after) =>
      (splitBytes? (stop - start) after).map fun (inside, _) => inside
  else none

theorem splitBytes?_cons (n : Nat) (c : Char) (cs : List Char) (h : 0 < n) :
    splitBytes? n (c :: cs) =
      if c.utf8Size ≤ n then
        (splitBytes? (n - c.utf8Size) cs).map fun (before, after) => (c :: before, after)
      else none := by
  cases n with
  | zero => omega
  | succ n => rfl

theorem splitBytes?_byteLength_append (a b : List Char) :
    splitBytes? (byteLength a) (a ++ b) = some (a, b) := by
  induction a with
  | nil => simp [splitBytes?]
  | cons c a ih =>
    have hc : 0 < c.utf8Size := Char.utf8Size_pos c
    rw [List.cons_append, splitBytes?_cons _ _ _ (by simp; omega)]
    simp [ih]

theorem append_of_splitBytes? {n : Nat} {cs before after : List Char}
    (h : splitBytes? n cs = some (before, after)) :
    before ++ after = cs ∧ byteLength before = n := by
  induction cs generalizing n before with
  | nil =>
    cases n with
    | zero => simp [splitBytes?] at h; simp [h]
    | succ n => simp [splitBytes?] at h
  | cons c cs ih =>
    cases n with
    | zero => simp [splitBytes?] at h; simp [h]
    | succ n =>
      rw [splitBytes?_cons _ _ _ (by omega)] at h
      split at h
      · rename_i hle
        simp only [Option.map_eq_some_iff, Prod.mk.injEq, Prod.exists] at h
        obtain ⟨b, a, hb, rfl, rfl⟩ := h
        have := ih hb
        simp [this.1, this.2]
        omega
      · simp at h

end ColorTheme

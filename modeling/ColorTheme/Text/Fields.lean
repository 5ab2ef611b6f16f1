/-!
# Texts cut at a separator

* `fields` cuts a text at every separator, and gives one field more than there are separators.
* `join_fields` : the fields with separators between them are the text.
-/

set_option autoImplicit false

namespace ColorTheme

/-- The parts of `cs` between its separators. -/
def fields (separator : Char) : List Char → List (List Char)
  | [] => [[]]
  | c :: cs =>
    if c = separator then [] :: fields separator cs
    else
      match fields separator cs with
      | [] => [[c]]
      | first :: rest => (c :: first) :: rest

/-- Parts put together with separators between them. -/
def joinFields (separator : Char) : List (List Char) → List Char
  | [] => []
  | [last] => last
  | first :: second :: rest => first ++ separator :: joinFields separator (second :: rest)

theorem fields_ne_nil (separator : Char) (cs : List Char) : fields separator cs ≠ [] := by
  cases cs with
  | nil => simp [fields]
  | cons c cs =>
    unfold fields
    split
    · simp
    · split <;> simp

theorem join_fields (separator : Char) (cs : List Char) :
    joinFields separator (fields separator cs) = cs := by
  induction cs with
  | nil => rfl
  | cons c cs ih =>
    have hne := fields_ne_nil separator cs
    unfold fields
    split
    · rename_i h
      cases hf : fields separator cs with
      | nil => exact absurd hf hne
      | cons first rest => rw [hf] at ih; simp [joinFields, ih, h]
    · cases hf : fields separator cs with
      | nil => exact absurd hf hne
      | cons first rest =>
        rw [hf] at ih
        cases rest with
        | nil => simp only [joinFields] at ih ⊢; rw [ih]
        | cons second rest => simp only [joinFields, List.cons_append] at ih ⊢; rw [ih]

theorem mem_joinFields {separator c : Char} {parts : List (List Char)}
    (h : c ∈ joinFields separator parts) : c = separator ∨ ∃ part ∈ parts, c ∈ part := by
  fun_induction joinFields separator parts with
  | case1 => simp at h
  | case2 last => exact .inr ⟨last, by simp, h⟩
  | case3 first second rest ih =>
    rcases List.mem_append.mp h with h | h
    · exact .inr ⟨first, by simp, h⟩
    · rcases List.mem_cons.mp h with h | h
      · exact .inl h
      · rcases ih h with h | ⟨part, inRest, h⟩
        · exact .inl h
        · exact .inr ⟨part, List.mem_cons_of_mem _ inRest, h⟩

end ColorTheme

import ColorTheme.Text.Fields
import ColorTheme.Text.Hex
import ColorTheme.Text.Quoted
import Mathlib.Data.List.Basic

/-!
# Quoted texts and lines, read back

* `Separable` : codes that can be cut off the front of a text in only one way, so that texts with
  the same codes are the same.
* `takeEscaped`, `takeEscaped_escapeQuoted` : the character at the front of a quoted text.
* `quote_inj` : different texts are different in quotes.
* `fields_lines` : lines that are put below each other are the lines of the text.
* `fields_joinFields` : parts with separators between them are read back, if no separator stands in
  one of them.
-/

set_option autoImplicit false

namespace ColorTheme

/-! ## Codes -/

section

variable {α β : Type}

/-- Two texts that go on to their first `c` are the same if they are with all that follows. -/
theorem eq_of_append_cons {c : α} {x y r s : List α} (hx : c ∉ x) (hy : c ∉ y)
    (h : x ++ c :: r = y ++ c :: s) : x = y ∧ r = s := by
  induction x generalizing y with
  | nil =>
    cases y with
    | nil => exact ⟨rfl, (List.cons.inj h).2⟩
    | cons b y =>
      obtain ⟨rfl, -⟩ := List.cons.inj h
      exact absurd List.mem_cons_self hy
  | cons a x ih =>
    cases y with
    | nil =>
      obtain ⟨rfl, -⟩ := List.cons.inj h
      exact absurd List.mem_cons_self hx
    | cons b y =>
      obtain ⟨rfl, hrest⟩ := List.cons.inj h
      obtain ⟨rfl, hrs⟩ := ih (fun hc => hx (List.mem_cons_of_mem _ hc))
        (fun hc => hy (List.mem_cons_of_mem _ hc)) hrest
      exact ⟨rfl, hrs⟩

/-- No code is empty, and what is in front of a text is told by the text. -/
structure Separable (code : α → List β) : Prop where
  nonempty : ∀ a, code a ≠ []
  cut : ∀ {a b : α} {r s : List β}, code a ++ r = code b ++ s → a = b ∧ r = s

/-- **Different lists have different codes.** -/
theorem Separable.flatMap_inj {code : α → List β} (h : Separable code) {xs ys : List α}
    (heq : xs.flatMap code = ys.flatMap code) : xs = ys := by
  induction xs generalizing ys with
  | nil =>
    cases ys with
    | nil => rfl
    | cons b ys => exact absurd (List.append_eq_nil_iff.1 heq.symm).1 (h.nonempty b)
  | cons a xs ih =>
    cases ys with
    | nil => exact absurd (List.append_eq_nil_iff.1 heq).1 (h.nonempty a)
    | cons b ys =>
      obtain ⟨rfl, hrest⟩ := h.cut heq
      rw [ih hrest]

/-- Codes that a reader takes off the front of every text. -/
theorem Separable.of_take {code : α → List β} (take : List β → Option (α × List β))
    (hnil : take [] = none) (hcode : ∀ a rest, take (code a ++ rest) = some (a, rest)) :
    Separable code where
  nonempty a ha := by
    have htake := hcode a []
    rw [ha, List.append_nil, hnil] at htake
    cases htake
  cut {a b r s} heq := by
    have htake := hcode a r
    rw [heq, hcode b s] at htake
    obtain ⟨rfl, rfl⟩ := Prod.mk.inj (Option.some.inj htake)
    exact ⟨rfl, rfl⟩

end

/-! ## Hexadecimal numbers -/

/-- The number with the given digits. -/
def numberOfHex (digits : List Char) : Nat :=
  digits.foldl (fun value c => 16 * value + (hexDigit? c).getD 0) 0

theorem numberOfHex_toDigits (n : Nat) : numberOfHex (Nat.toDigits 16 n) = n := by
  induction n using Nat.strongRecOn with
  | ind n ih =>
    rw [Nat.toDigits_eq_if (by decide)]
    split
    · rename_i hsmall
      simp [numberOfHex, hexDigit?_digitChar n hsmall]
    · rename_i hlarge
      have hhigh : numberOfHex (Nat.toDigits 16 (n / 16)) = n / 16 := ih (n / 16) (by omega)
      unfold numberOfHex at hhigh ⊢
      rw [List.foldl_append, hhigh, List.foldl_cons, List.foldl_nil,
        hexDigit?_digitChar _ (Nat.mod_lt _ (by decide)), Option.getD_some]
      omega

theorem isSome_hexDigit?_of_mem_toDigits {n : Nat} {c : Char} (h : c ∈ Nat.toDigits 16 n) :
    (hexDigit? c).isSome = true := by
  induction n using Nat.strongRecOn with
  | ind n ih =>
    rw [Nat.toDigits_eq_if (by decide)] at h
    split at h
    · rename_i hsmall
      rw [List.mem_singleton.1 h, hexDigit?_digitChar n hsmall]
      rfl
    · rename_i hlarge
      rcases List.mem_append.1 h with h | h
      · exact ih (n / 16) (by omega) h
      · rw [List.mem_singleton.1 h, hexDigit?_digitChar _ (Nat.mod_lt _ (by decide))]
        rfl

/-! ## Quoted texts -/

/-- The character that the text begins with inside quotes, and the text behind it. -/
def takeEscaped : List Char → Option (Char × List Char)
  | [] => none
  | '\\' :: '"' :: rest => some ('"', rest)
  | '\\' :: '\\' :: rest => some ('\\', rest)
  | '\\' :: '0' :: rest => some ('\x00', rest)
  | '\\' :: 't' :: rest => some ('\t', rest)
  | '\\' :: 'n' :: rest => some ('\n', rest)
  | '\\' :: 'r' :: rest => some ('\r', rest)
  | '\\' :: 'u' :: '\x7b' :: rest =>
    some (Char.ofNat (numberOfHex (rest.takeWhile (· != '\x7d'))),
      (rest.dropWhile (· != '\x7d')).drop 1)
  | c :: rest => some (c, rest)

theorem takeEscaped_number (n : Nat) (rest : List Char) :
    takeEscaped ('\\' :: 'u' :: '\x7b' :: Nat.toDigits 16 n ++ '\x7d' :: rest) =
      some (Char.ofNat n, rest) := by
  have hdigits : ∀ c ∈ Nat.toDigits 16 n, (c != '\x7d') = true := by
    intro c hc
    rw [bne_iff_ne]
    rintro rfl
    exact absurd (isSome_hexDigit?_of_mem_toDigits hc) (by decide)
  rw [List.cons_append, List.cons_append, List.cons_append, takeEscaped,
    List.takeWhile_append_of_pos hdigits, List.dropWhile_append_of_pos hdigits]
  simp [numberOfHex_toDigits]

theorem takeEscaped_plain {c : Char} (h : c ≠ '\\') (rest : List Char) :
    takeEscaped (c :: rest) = some (c, rest) := by
  unfold takeEscaped
  split <;> simp_all

/-- **A character inside quotes is read back.** -/
theorem takeEscaped_escapeQuoted (c : Char) (rest : List Char) :
    takeEscaped (escapeQuoted c ++ rest) = some (c, rest) := by
  unfold escapeQuoted
  split
  · rename_i hquote; subst hquote; rfl
  split
  · rename_i hslash; subst hslash; rfl
  rename_i hslash
  split
  · rename_i hnul; subst hnul; rfl
  split
  · rename_i htab; subst htab; rfl
  split
  · rename_i hline; subst hline; rfl
  split
  · rename_i hreturn; subst hreturn; rfl
  split
  · have hnumber := takeEscaped_number c.toNat rest
    rw [Char.ofNat_toNat] at hnumber
    simpa using hnumber
  · exact takeEscaped_plain hslash rest

theorem separable_escapeQuoted : Separable escapeQuoted :=
  .of_take takeEscaped rfl takeEscaped_escapeQuoted

/-- **Different texts are different in quotes.** -/
theorem quote_inj {cs ds : List Char} (h : quote cs = quote ds) : cs = ds :=
  separable_escapeQuoted.flatMap_inj (List.append_cancel_right (List.cons.inj h).2)

/-! ## Lines -/

theorem fields_append {separator : Char} {line : List Char} (h : separator ∉ line)
    (rest : List Char) :
    fields separator (line ++ separator :: rest) = line :: fields separator rest := by
  induction line with
  | nil => exact if_pos rfl
  | cons c line ih =>
    rw [List.mem_cons, not_or] at h
    rw [List.cons_append, fields, if_neg (Ne.symm h.1), ih h.2]

/-- **Lines that are put below each other are the lines of the text.** -/
theorem fields_lines {separator : Char} {lines : List (List Char)}
    (h : ∀ line ∈ lines, separator ∉ line) :
    fields separator (lines.flatMap (· ++ [separator])) = lines ++ [[]] := by
  induction lines with
  | nil => rfl
  | cons line lines ih =>
    rw [List.forall_mem_cons] at h
    rw [List.flatMap_cons, List.append_assoc, List.singleton_append, fields_append h.1, ih h.2]
    rfl

/-! ## Parts with separators between them -/

section

variable {separator : Char} {parts : List (List Char)}

theorem joinFields_cons (separator : Char) (part : List Char) (hne : parts ≠ []) :
    joinFields separator (part :: parts) = part ++ separator :: joinFields separator parts := by
  cases parts with
  | nil => exact absurd rfl hne
  | cons second rest => rfl

/-- Around each part stand the others, with the separators towards it. -/
theorem joinFields_append_cons (separator : Char) (front : List (List Char)) (part : List Char)
    (behind : List (List Char)) :
    joinFields separator (front ++ part :: behind) =
      front.flatMap (· ++ [separator]) ++ (part ++ behind.flatMap (separator :: ·)) := by
  induction front with
  | nil =>
    induction behind generalizing part with
    | nil => exact (List.append_nil part).symm
    | cons second rest ih =>
      have hrest : joinFields separator (second :: rest) =
          second ++ rest.flatMap (separator :: ·) := ih second
      rw [List.nil_append, joinFields_cons separator part (List.cons_ne_nil _ _), hrest]
      rfl
  | cons first front ih =>
    rw [List.cons_append, joinFields_cons separator first (by simp), ih, List.flatMap_cons,
      List.append_assoc, List.append_assoc, List.singleton_append]

/-- **Parts without separators are read back.** -/
theorem fields_joinFields (hne : parts ≠ []) (h : ∀ part ∈ parts, separator ∉ part) :
    fields separator (joinFields separator parts) = parts := by
  fun_induction joinFields separator parts with
  | case1 => exact absurd rfl hne
  | case2 last =>
    have hlast := h last List.mem_cons_self
    clear hne h
    induction last with
    | nil => rfl
    | cons c last ih =>
      rw [List.mem_cons, not_or] at hlast
      rw [fields, if_neg (Ne.symm hlast.1), ih hlast.2]
  | case3 first second rest ih =>
    rw [List.forall_mem_cons] at h
    rw [fields_append h.1, ih (List.cons_ne_nil _ _) h.2]

theorem not_mem_of_mem_fields {cs part : List Char} (h : part ∈ fields separator cs) :
    separator ∉ part := by
  induction cs generalizing part with
  | nil => rw [List.mem_singleton.1 h]; exact List.not_mem_nil
  | cons c cs ih =>
    obtain ⟨first, rest, hfields⟩ := List.exists_cons_of_ne_nil (fields_ne_nil separator cs)
    unfold fields at h
    split at h
    · rcases List.mem_cons.1 h with rfl | h
      · exact List.not_mem_nil
      · exact ih h
    · rename_i hc
      rw [hfields] at h ih
      rcases List.mem_cons.1 h with rfl | h
      · exact List.not_mem_cons_of_ne_of_not_mem (Ne.symm hc) (ih List.mem_cons_self)
      · exact ih (List.mem_cons_of_mem first h)

theorem mem_of_mem_fields {c : Char} {cs part : List Char} (h : part ∈ fields separator cs)
    (hc : c ∈ part) : c ∈ cs := by
  obtain ⟨front, behind, hfields⟩ := List.append_of_mem h
  rw [← join_fields separator cs, hfields, joinFields_append_cons]
  exact List.mem_append_right _ (List.mem_append_left _ hc)

/-- All parts are empty where the text has nothing but separators. -/
theorem all_isEmpty_fields {cs : List Char} :
    (fields separator cs).all List.isEmpty = true ↔ ∀ c ∈ cs, c = separator := by
  constructor
  · intro h c hc
    rw [← join_fields separator cs] at hc
    rcases mem_joinFields hc with hc | ⟨part, hpart, hc⟩
    · exact hc
    · rw [List.isEmpty_iff.1 (List.all_eq_true.1 h part hpart)] at hc
      cases hc
  · intro h
    refine List.all_eq_true.2 fun part hpart => List.isEmpty_iff.2 ?_
    refine List.eq_nil_iff_forall_not_mem.2 fun c hc => not_mem_of_mem_fields hpart ?_
    rwa [h c (mem_of_mem_fields hpart hc)] at hc

end

end ColorTheme

import ColorTheme.Color
import Mathlib.Data.List.Basic

/-!
# The texts of colors

A color is written with six hexadecimal digits and read from six of them.

* `IsHexDigit`, `IsHexText` : the format, digits of either case with or without one `#` before
  them.
* `hexByte?_eq_some_iff`, `Color.ofDigits?_eq_some_iff` : what is read is written with the same
  digits in lower case.
* `Color.parse_exact` : the texts of this format are read, and no others.
-/

set_option autoImplicit false

namespace ColorTheme

/-- A hexadecimal digit of either case. -/
def IsHexDigit (c : Char) : Prop := '0' ≤ c ∧ c ≤ '9' ∨ 'a' ≤ c ∧ c ≤ 'f' ∨ 'A' ≤ c ∧ c ≤ 'F'

instance : DecidablePred IsHexDigit := fun _ => inferInstanceAs (Decidable (_ ∨ _))

/-- The text is six hexadecimal digits, with or without one `#` before them. -/
structure IsHexText (text : String) (digits : List Char) : Prop where
  sign : text.toList = digits ∨ text.toList = '#' :: digits
  six : digits.length = 6
  hex : ∀ d ∈ digits, IsHexDigit d

variable {c high low : Char} {n : Nat}

/-! ## Digits -/

theorem isHexDigit_of_hexDigit? (h : hexDigit? c = some n) : IsHexDigit c := by
  unfold hexDigit? at h
  split at h
  · rename_i hdigit
    obtain ⟨hlow, hhigh⟩ := Bool.and_eq_true_iff.1 hdigit
    exact .inl ⟨of_decide_eq_true hlow, of_decide_eq_true hhigh⟩
  · split at h
    · rename_i hlower
      exact .inr (.inl hlower)
    · split at h
      · rename_i hupper
        exact .inr (.inr hupper)
      · cases h

theorem IsHexDigit.exists_code (h : IsHexDigit c) : ∃ k < 103, c = Char.ofNat k := by
  have hlast : c ≤ 'f' := by
    rcases h with h | h | h
    · exact Char.le_trans h.2 (by decide)
    · exact h.2
    · exact Char.le_trans h.2 (by decide)
  have hle : c.toNat ≤ 102 := UInt32.le_iff_toNat_le.1 hlast
  exact ⟨c.toNat, Nat.lt_succ_of_le hle, (Char.ofNat_toNat c).symm⟩

/-- A digit has a value, and this value has the digit in lower case. -/
theorem IsHexDigit.exists_value (h : IsHexDigit c) :
    ∃ n < 16, hexDigit? c = some n ∧ Nat.digitChar n = c.toLower := by
  have hall : ∀ k < 103, IsHexDigit (Char.ofNat k) → ∃ n < 16, hexDigit? (Char.ofNat k) = some n ∧
      Nat.digitChar n = (Char.ofNat k).toLower := by decide
  obtain ⟨k, hk, rfl⟩ := h.exists_code
  exact hall k hk h

theorem hexDigit?_eq_some (h : hexDigit? c = some n) :
    IsHexDigit c ∧ n < 16 ∧ Nat.digitChar n = c.toLower := by
  have hdigit := isHexDigit_of_hexDigit? h
  obtain ⟨m, hm, hvalue, hchar⟩ := hdigit.exists_value
  obtain rfl := Option.some.inj (hvalue.symm.trans h)
  exact ⟨hdigit, hm, hchar⟩

/-- The digits of two values. -/
theorem hexByte_ofNat {h l : Nat} (hh : h < 16) (hl : l < 16) :
    hexByte (UInt8.ofNat (16 * h + l)) = [Nat.digitChar h, Nat.digitChar l] := by
  have hnat : (UInt8.ofNat (16 * h + l)).toNat = 16 * h + l := by
    rw [UInt8.toNat_ofNat']
    omega
  have hhigh : (16 * h + l) / 16 = h := by omega
  have hlow : (16 * h + l) % 16 = l := by omega
  rw [hexByte, hnat, hhigh, hlow]

theorem hexByte_injective {a b : UInt8} (h : hexByte a = hexByte b) : a = b := by
  obtain ⟨hhigh, hrest⟩ := List.cons.inj h
  have hread := hexByte?_digits a
  rw [hhigh, (List.cons.inj hrest).1, hexByte?_digits b] at hread
  exact (Option.some.inj hread).symm

/-- **Two digits are read as the byte that is written with them**, in lower case. -/
theorem hexByte?_eq_some_iff {b : UInt8} : hexByte? high low = some b ↔
    IsHexDigit high ∧ IsHexDigit low ∧ hexByte b = [high.toLower, low.toLower] := by
  constructor
  · intro hbyte
    obtain ⟨h, hh, hbyte⟩ := Option.bind_eq_some_iff.1 hbyte
    obtain ⟨l, hl, rfl⟩ := Option.map_eq_some_iff.1 hbyte
    obtain ⟨hhigh, hh, hhighChar⟩ := hexDigit?_eq_some hh
    obtain ⟨hlow, hl, hlowChar⟩ := hexDigit?_eq_some hl
    rw [← hhighChar, ← hlowChar]
    exact ⟨hhigh, hlow, hexByte_ofNat hh hl⟩
  · rintro ⟨hhigh, hlow, hdigits⟩
    obtain ⟨h, hh, hhighValue, hhighChar⟩ := hhigh.exists_value
    obtain ⟨l, hl, hlowValue, hlowChar⟩ := hlow.exists_value
    rw [← hhighChar, ← hlowChar, ← hexByte_ofNat hh hl] at hdigits
    rw [hexByte?, hhighValue, hlowValue, hexByte_injective hdigits]
    rfl

theorem exists_hexByte? (hhigh : IsHexDigit high) (hlow : IsHexDigit low) :
    ∃ b, hexByte? high low = some b := by
  obtain ⟨h, -, hh, -⟩ := hhigh.exists_value
  obtain ⟨l, -, hl, -⟩ := hlow.exists_value
  rw [hexByte?, hh, hl]
  exact ⟨_, rfl⟩

/-! ## Colors -/

namespace Color

variable {text : String} {digits : List Char} {c : Color}

theorem exists_six (h : digits.length = 6) :
    ∃ r₁ r₂ g₁ g₂ b₁ b₂, digits = [r₁, r₂, g₁, g₂, b₁, b₂] := by
  rcases digits with _ | ⟨r₁, _ | ⟨r₂, _ | ⟨g₁, _ | ⟨g₂, _ | ⟨b₁, _ | ⟨b₂, _ | ⟨more, rest⟩⟩⟩⟩⟩⟩⟩
  all_goals simp at h ⊢

theorem hexDigits_eq_iff {r g b : UInt8} {r₁ r₂ g₁ g₂ b₁ b₂ : Char} :
    hexDigits ⟨r, g, b⟩ = [r₁, r₂, g₁, g₂, b₁, b₂] ↔
      hexByte r = [r₁, r₂] ∧ hexByte g = [g₁, g₂] ∧ hexByte b = [b₁, b₂] := by
  simp [hexDigits, hexByte, and_assoc]

/-- **Six digits are read as the color that is written with them**, in lower case. -/
theorem ofDigits?_eq_some_iff : ofDigits? digits = some c ↔
    digits.length = 6 ∧ (∀ d ∈ digits, IsHexDigit d) ∧ c.hexDigits = digits.map Char.toLower := by
  obtain ⟨r, g, b⟩ := c
  constructor
  · intro h
    unfold ofDigits? at h
    split at h
    · rename_i r₁ r₂ g₁ g₂ b₁ b₂
      simp only [Option.bind_eq_some_iff, Option.map_eq_some_iff, hexByte?_eq_some_iff] at h
      obtain ⟨_, ⟨hr₁, hr₂, hr⟩, _, ⟨hg₁, hg₂, hg⟩, _, ⟨hb₁, hb₂, hb⟩, ⟨⟩⟩ := h
      refine ⟨rfl, ?_, hexDigits_eq_iff.2 ⟨hr, hg, hb⟩⟩
      simp [hr₁, hr₂, hg₁, hg₂, hb₁, hb₂]
    · cases h
  · rintro ⟨hsix, hdigits, hwritten⟩
    obtain ⟨r₁, r₂, g₁, g₂, b₁, b₂, rfl⟩ := exists_six hsix
    simp only [List.forall_mem_cons] at hdigits
    obtain ⟨hr₁, hr₂, hg₁, hg₂, hb₁, hb₂, -⟩ := hdigits
    obtain ⟨hr, hg, hb⟩ := hexDigits_eq_iff.1 hwritten
    rw [ofDigits?, hexByte?_eq_some_iff.2 ⟨hr₁, hr₂, hr⟩, hexByte?_eq_some_iff.2 ⟨hg₁, hg₂, hg⟩,
      hexByte?_eq_some_iff.2 ⟨hb₁, hb₂, hb⟩]
    rfl

theorem isHexDigit_of_mem_hexDigits {d : Char} (h : d ∈ c.hexDigits) : IsHexDigit d :=
  (ofDigits?_eq_some_iff.1 (ofDigits?_hexDigits c)).2.1 d h

theorem exists_ofDigits? (hsix : digits.length = 6) (hdigits : ∀ d ∈ digits, IsHexDigit d) :
    ∃ c, ofDigits? digits = some c := by
  obtain ⟨r₁, r₂, g₁, g₂, b₁, b₂, rfl⟩ := exists_six hsix
  simp only [List.forall_mem_cons] at hdigits
  obtain ⟨hr₁, hr₂, hg₁, hg₂, hb₁, hb₂, -⟩ := hdigits
  obtain ⟨r, hr⟩ := exists_hexByte? hr₁ hr₂
  obtain ⟨g, hg⟩ := exists_hexByte? hg₁ hg₂
  obtain ⟨b, hb⟩ := exists_hexByte? hb₁ hb₂
  rw [ofDigits?, hr, hg, hb]
  exact ⟨_, rfl⟩

/-- A text is read as a color if it is a hex text, by its digits. -/
theorem ofHex?_eq_some_iff : ofHex? text = some c ↔
    ∃ digits, IsHexText text digits ∧ c.hexDigits = digits.map Char.toLower := by
  unfold ofHex?
  constructor
  · intro h
    split at h
    · rename_i digits hsign
      obtain ⟨hsix, hdigits, hwritten⟩ := ofDigits?_eq_some_iff.1 h
      exact ⟨digits, ⟨.inr hsign, hsix, hdigits⟩, hwritten⟩
    · obtain ⟨hsix, hdigits, hwritten⟩ := ofDigits?_eq_some_iff.1 h
      exact ⟨text.toList, ⟨.inl rfl, hsix, hdigits⟩, hwritten⟩
  · rintro ⟨digits, ⟨hsign, hsix, hdigits⟩, hwritten⟩
    have hread := ofDigits?_eq_some_iff.2 ⟨hsix, hdigits, hwritten⟩
    rcases hsign with hplain | hsign
    · rw [hplain]
      split
      · exact absurd (hdigits '#' List.mem_cons_self) (by decide)
      · exact hread
    · rw [hsign]
      exact hread

/-- A hex text has nothing but its sign and digits. -/
theorem isHexDigit_of_ofHex? (h : (ofHex? text).isSome = true) :
    ∀ d ∈ text.toList, d = '#' ∨ IsHexDigit d := by
  obtain ⟨c, hc⟩ := Option.isSome_iff_exists.1 h
  obtain ⟨digits, hformat, -⟩ := ofHex?_eq_some_iff.1 hc
  intro d hd
  rcases hformat.sign with hplain | hsign
  · exact .inr (hformat.hex d (hplain ▸ hd))
  · rw [hsign, List.mem_cons] at hd
    exact hd.imp_right (hformat.hex d)

/-- A hex text is read, and its color is written with its digits in lower case. -/
theorem exists_parse (h : IsHexText text digits) :
    ∃ c, parse text = .ok c ∧ c.hex = String.ofList ('#' :: digits.map Char.toLower) := by
  obtain ⟨c, hc⟩ := exists_ofDigits? h.six h.hex
  have hwritten := (ofDigits?_eq_some_iff.1 hc).2.2
  refine ⟨c, parse_eq_ok_iff.2 (ofHex?_eq_some_iff.2 ⟨digits, h, hwritten⟩), ?_⟩
  rw [hex, hwritten]

/-- The digits alone stand for the color as well. -/
theorem parse_hexBare (c : Color) : parse c.hexBare = .ok c := by
  obtain ⟨hsix, hdigits, hlower⟩ := ofDigits?_eq_some_iff.1 (ofDigits?_hexDigits c)
  have hformat : IsHexText c.hexBare c.hexDigits := ⟨.inl String.toList_ofList, hsix, hdigits⟩
  exact parse_eq_ok_iff.2 (ofHex?_eq_some_iff.2 ⟨c.hexDigits, hformat, hlower⟩)

/-- What becomes of a text that is read as a color. -/
structure ParsesExactly (text : String) : Prop where
  /-- A color comes of the texts of the format, and of no others. -/
  accepts : (∃ c, parse text = .ok c) ↔ ∃ digits, IsHexText text digits
  /-- The color is written with the same digits, in lower case. -/
  writes : ∀ digits c, IsHexText text digits → parse text = .ok c →
    c.hex = String.ofList ('#' :: digits.map Char.toLower)
  /-- Of any other text comes a failure, which tells the text as it is. -/
  refuses : (¬ ∃ digits, IsHexText text digits) → parse text = .error (.invalidHex text)

theorem parsesExactly (text : String) : ParsesExactly text where
  accepts := by
    constructor
    · rintro ⟨c, hc⟩
      obtain ⟨digits, hformat, -⟩ := ofHex?_eq_some_iff.1 (parse_eq_ok_iff.1 hc)
      exact ⟨digits, hformat⟩
    · rintro ⟨digits, hformat⟩
      obtain ⟨c, hc, -⟩ := exists_parse hformat
      exact ⟨c, hc⟩
  writes digits c hformat hc := by
    obtain ⟨d, hd, hwritten⟩ := exists_parse hformat
    obtain rfl : c = d := Except.ok.inj (hc.symm.trans hd)
    exact hwritten
  refuses hformat := by
    unfold parse
    cases hread : ofHex? text with
    | none => rfl
    | some c =>
      obtain ⟨digits, hdigits, -⟩ := ofHex?_eq_some_iff.1 hread
      exact absurd ⟨digits, hdigits⟩ hformat

/-- **Colors are read from the texts of one format, and each is read back from what is written.** -/
theorem parse_exact :
    (∀ text, ParsesExactly text) ∧ ∀ c : Color, parse c.hex = .ok c ∧ parse c.hexBare = .ok c :=
  ⟨parsesExactly, fun c => ⟨c.parse_hex, c.parse_hexBare⟩⟩

/-- Six bytes are not six digits. -/
example : parse "ééé" = .error (.invalidHex "ééé") := by decide

end Color

end ColorTheme

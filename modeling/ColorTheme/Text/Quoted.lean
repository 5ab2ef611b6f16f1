import ColorTheme.Text.Unprintable

/-!
# Quoted text

A text in quotes on a single line, where everything that cannot be shown on its own is written as
an escape.

* `quote` puts a text into quotes.
* `newline_not_mem_quote` : the quoted text never breaks the line.
-/

set_option autoImplicit false

namespace ColorTheme

/-- A character inside quotes: by a letter, by its code point, or as it is. -/
def escapeQuoted (c : Char) : List Char :=
  if c = '"' then ['\\', '"']
  else if c = '\\' then ['\\', '\\']
  else if c = '\x00' then ['\\', '0']
  else if c = '\t' then ['\\', 't']
  else if c = '\n' then ['\\', 'n']
  else if c = '\r' then ['\\', 'r']
  else if isUnprintable c then '\\' :: 'u' :: '\x7b' :: Nat.toDigits 16 c.toNat ++ ['\x7d']
  else [c]

/-- The text in quotes. -/
def quote (cs : List Char) : List Char := '"' :: cs.flatMap escapeQuoted ++ ['"']

theorem newline_ne_digitChar : ∀ n < 16, Nat.digitChar n ≠ '\n' := by decide

theorem newline_not_mem_hexDigits (n : Nat) : '\n' ∉ Nat.toDigits 16 n := by
  induction n using Nat.strongRecOn with
  | ind n ih =>
    rw [Nat.toDigits_eq_if (by decide)]
    split
    · rename_i small
      simp [(newline_ne_digitChar n small).symm]
    · have low := newline_ne_digitChar (n % 16) (Nat.mod_lt _ (by decide))
      simp only [List.mem_append, List.mem_singleton, not_or]
      exact ⟨ih (n / 16) (by omega), low.symm⟩

theorem newline_not_mem_escapeQuoted (c : Char) : '\n' ∉ escapeQuoted c := by
  unfold escapeQuoted
  by_cases h : c = '\n'
  · subst h; decide
  · have hex := newline_not_mem_hexDigits c.toNat
    repeat' split
    all_goals simp [hex, Ne.symm h]

theorem newline_not_mem_quote (cs : List Char) : '\n' ∉ quote cs := by
  simp [quote, newline_not_mem_escapeQuoted]

end ColorTheme

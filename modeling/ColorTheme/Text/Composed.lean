import ColorTheme.Text.Decomposition
import ColorTheme.Text.MarkOrder

/-!
# Texts in composed form

A text can be written in many ways that are the same to a reader: with characters or with their
parts, and with marks in one sequence or another.  The composed form is one of them.

* `composed` gives it: all characters are taken apart, marks are sorted by their orders, and what
  has a character of its own is put together.
* `perm_sortMarks` : sorting only moves marks.
-/

set_option autoImplicit false

namespace ColorTheme

/-- A character in front of sorted marks, moved behind those of lower orders. -/
def insertMark (c : Char) : List Char → List Char
  | [] => [c]
  | d :: ds =>
    if 0 < markOrder d ∧ markOrder d < markOrder c then d :: insertMark c ds else c :: d :: ds

/-- The text with the marks at every character sorted. -/
def sortMarks (cs : List Char) : List Char := cs.foldr insertMark []

/-- Puts together the characters that follow `base`, and the base.  In `marks` are those between
that could not be put together with the base, the last of them first. -/
def composeBehind (base : Char) (marks : List Char) : List Char → List Char
  | [] => base :: marks.reverse
  | c :: cs =>
    let reaches := marks.head?.all (markOrder · < markOrder c)
    match if reaches then composition? base c else none with
    | some whole => composeBehind whole marks cs
    | none =>
      if markOrder c = 0 then base :: marks.reverse ++ composeBehind c [] cs
      else composeBehind base (c :: marks) cs

/-- Puts together what has a character of its own.  Marks at the beginning have no base. -/
def compose : List Char → List Char
  | [] => []
  | c :: cs => if markOrder c = 0 then composeBehind c [] cs else c :: compose cs

/-- The text in composed form. -/
def composed (cs : List Char) : List Char := compose (sortMarks (cs.flatMap decomposition))

theorem perm_insertMark (c : Char) (cs : List Char) : (insertMark c cs).Perm (c :: cs) := by
  induction cs with
  | nil => exact List.Perm.refl _
  | cons d ds ih =>
    unfold insertMark
    split
    · exact (ih.cons d).trans (List.Perm.swap c d ds)
    · exact List.Perm.refl _

theorem perm_sortMarks (cs : List Char) : (sortMarks cs).Perm cs := by
  induction cs with
  | nil => exact List.Perm.refl _
  | cons c cs ih => exact (perm_insertMark c (sortMarks cs)).trans (ih.cons c)

end ColorTheme

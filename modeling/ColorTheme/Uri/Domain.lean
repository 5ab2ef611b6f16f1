import ColorTheme.Text.Composed
import ColorTheme.Uri.Domain.Direction
import ColorTheme.Uri.Domain.Folding
import ColorTheme.Uri.Domain.Joining
import ColorTheme.Uri.Domain.Punycode
import ColorTheme.Uri.Domain.Refused

/-!
# Domain names

The name of a host is a row of labels with dots between them.  However it is spelled, it has one
form in ASCII: characters in their plain spelling, and labels with others than ASCII encoded.

* `ofText?` gives that form; not every text has one.
* `isAscii_of_ofText?` : it is ASCII.
-/

set_option autoImplicit false

namespace ColorTheme.Domain

/-- What labels that are encoded begin with. -/
def encodedMark : List Char := ['x', 'n', '-', '-']

/-- All characters are ASCII. -/
def isAscii (label : List Char) : Bool := label.all fun c => decide (c.toNat < firstInserted)

/-- The text is in composed form, and each of its characters in its plain spelling. -/
def isPlain (cs : List Char) : Bool := composed cs == cs && cs.all fun c => fold c == [c]

/-- The label that a label stands for.  Only those are encoded that have to be. -/
def meaning? (label : List Char) : Option (List Char) :=
  if encodedMark.isPrefixOf label then
    (decode? (label.drop encodedMark.length)).filter fun meant =>
      !isAscii meant && isPlain meant && !encodedMark.isPrefixOf meant
  else some label

/-- A name may have the label. -/
def isLabel (label : List Char) : Bool :=
  !label.any isRefused && !label.head?.any isMark && joinersFit label

/-- The label in ASCII. -/
def asciiForm (label : List Char) : List Char :=
  if isAscii label then label else encodedMark ++ encode label

/-- The form of a name in ASCII. -/
def ofText? (cs : List Char) : Option (List Char) :=
  ((fields '.' (composed (cs.flatMap fold))).mapM meaning?).bind fun labels =>
    if labels.all isLabel && (!labels.any runsBackward || labels.all keepsDirection) then
      some (joinFields '.' (labels.map asciiForm))
    else none

theorem isAscii_of_mem_asciiForm {label : List Char} {c : Char} (h : c ∈ asciiForm label) :
    c.toNat < firstInserted := by
  unfold asciiForm at h
  split at h
  · rename_i all
    simpa using List.all_eq_true.mp all c h
  · rcases List.mem_append.mp h with h | h
    · simp only [encodedMark, List.mem_cons, List.not_mem_nil, or_false] at h
      rcases h with h | h | h | h <;> (subst h; decide)
    · exact isAscii_of_mem_encode h

theorem isAscii_of_ofText? {cs form : List Char} (h : ofText? cs = some form) :
    ∀ c ∈ form, c.toNat < firstInserted := by
  unfold ofText? at h
  obtain ⟨labels, -, h⟩ := Option.bind_eq_some_iff.mp h
  split at h
  · cases h
    intro c inForm
    rcases mem_joinFields inForm with h | ⟨part, inLabels, h⟩
    · subst h; decide
    · obtain ⟨label, -, rfl⟩ := List.mem_map.mp inLabels
      exact isAscii_of_mem_asciiForm h
  · cases h

end ColorTheme.Domain

import ColorTheme.Analysis

/-!
# Themes

A theme is what a document without errors settles.  Terminals need all sixteen colors of the
`ansi` block; a strict check refuses a theme without them.

* `Theme.ofAnalysis` checks an analysis and takes the theme from it.
* `Theme.of_ofAnalysis` : a theme holds the notes, trees and styles of its analysis, unchanged.
* `Theme.ofAnalysis_of_hasErrors` : an error in the document leaves no theme.
-/

set_option autoImplicit false

namespace ColorTheme

/-- The notes of a document, the color trees of its blocks, and the styles in its styled block. -/
structure Theme where
  notes : Entries String String
  scopes : Scopes
  styles : Entries String Style
deriving Inhabited

/-- Why a document gives no theme. -/
inductive ThemeError
  | invalid (errors : Nat)
  | missingAnsi
  | incompleteAnsi (missing : List String)
deriving Repr, DecidableEq

/-- That there is no `ansi` block, in words. -/
def missingAnsiMessage : String := "theme has no `" ++ ansiName ++ "` block"

/-- The wording of a refusal. -/
def ThemeError.message : ThemeError → String
  | .invalid errors => "theme has " ++ toString errors ++ " error(s)"
  | .missingAnsi => missingAnsiMessage
  | .incompleteAnsi missing => missingColors ansiName missing "(s)"

/-- The colors of a terminal that a tree lacks. -/
def missingAnsiNames (tree : Node) : List String :=
  ansiNames.filter fun name => (tree.child? name).isNone

/-- What a strict check finds wrong with the `ansi` block. -/
def ansiError? (scopes : Scopes) : Option ThemeError :=
  match scopes.get? ansiName with
  | none => some .missingAnsi
  | some tree =>
    match missingAnsiNames tree with
    | [] => none
    | missing => some (.incompleteAnsi missing)

namespace Theme

/-- The theme that an analysis settles. -/
def ofAnalysis (strictAnsi : Bool) (a : Analysis) : Except ThemeError Theme :=
  if a.hasErrors then .error (.invalid a.errors.length)
  else
    match if strictAnsi then ansiError? a.scopes else none with
    | some refusal => .error refusal
    | none => .ok ⟨a.notes, a.scopes, a.styles⟩

theorem of_ofAnalysis {strictAnsi : Bool} {a : Analysis} {theme : Theme}
    (h : ofAnalysis strictAnsi a = .ok theme) : theme = ⟨a.notes, a.scopes, a.styles⟩ := by
  unfold ofAnalysis at h
  split at h
  · simp at h
  · split at h <;> simp_all

theorem ofAnalysis_of_hasErrors {a : Analysis} (h : a.hasErrors = true) (strictAnsi : Bool) :
    ofAnalysis strictAnsi a = .error (.invalid a.errors.length) := by
  simp [ofAnalysis, h]

/-- What is said about a theme that passed: it may still have no `ansi` block. -/
def warnings (theme : Theme) : List String :=
  if (theme.scopes.get? ansiName).isNone then [missingAnsiMessage] else []

/-- The style of the color at `path` in a block; only one block has styles. -/
def styleOf? (theme : Theme) (block path : String) : Option Style :=
  if BlockTable.standard.styledName? = some block then theme.styles.get? path else none

end Theme

end ColorTheme

import ColorTheme.Analysis.Walk
import ColorTheme.Item.Reading

/-!
# Analysis of a document

What a document means: the color tree of each of its blocks, its styles and notes, where its
names are defined, where its colors stand, and what is wrong with it.

* `Analysis.ofBody` works out the items of a document, `Analysis.ofSource` its text.
* Without a palette nothing is worked out, and only the diagnostics tell of the document.
-/

set_option autoImplicit false

namespace ColorTheme

/-- All that is known of a document.  The verdicts are those on its items in the order of the
walk, the scopes are in the order of the table. -/
structure Analysis where
  diagnostics : List Diagnostic
  log : Log
  scopes : Scopes
  styles : Entries String Style

namespace Analysis

/-- Every defined path and the place of its name. -/
def symbols (a : Analysis) : Entries Path Span :=
  Entries.putAll [] (a.log.filterMap Verdict.symbol?)

/-- Every resolved color and the expression it comes from. -/
def colors (a : Analysis) : List ColorLocation := a.log.filterMap Verdict.location?

/-- The notes of the `meta` block. -/
def notes (a : Analysis) : Entries String String := a.log.filterMap Verdict.note?

/-- The tree of a block. -/
def scope? (a : Analysis) (name : String) : Option Node := a.scopes.get? name

/-- The diagnostics that are errors. -/
def errors (a : Analysis) : List Diagnostic := a.diagnostics.filter Diagnostic.isError

/-- Something is wrong, and not only incomplete. -/
def hasErrors (a : Analysis) : Bool := a.diagnostics.any Diagnostic.isError

/-- The first color whose expression covers byte `offset`. -/
def colorAt? (a : Analysis) (offset : Nat) : Option ColorLocation :=
  a.colors.find? (·.span.contains offset)

/-- The listings of all blocks, each path under the name of its block. -/
def flatColors (a : Analysis) : Entries String Color :=
  Entries.putAll [] (a.scopes.flatMap fun (block, tree) =>
    tree.flatten.map fun (path, color) => (block ++ "." ++ path, color))

/-- Works out the items of a document whose wording has the given flaws. -/
def ofBody (table : BlockTable) (body : Body) (flaws : List Flaw) : Analysis :=
  let before := outsideVerdicts body ++ blockVerdicts table [] body.blocks
  let report (log : Log) : List Diagnostic :=
    flaws.map Diagnostic.ofFlaw ++ log.filterMap Verdict.diagnostic?
  if table.knows paletteName ∧ (body.block? paletteName).isSome then
    let noted := match body.block? metaName with
      | some block => walkMeta before block
      | none => before
    let stage := walkBlocks body ⟨noted, [], []⟩ table
    { diagnostics := report stage.log
      log := stage.log
      scopes := stage.scopes
      styles := stage.styles }
  else
    { diagnostics := report before ++ [⟨.missingPalette, Span.point 0⟩]
      log := before
      scopes := []
      styles := [] }

/-- Works out a source.  A name that is still missing behind a dot is passed over: it is being
typed. -/
def ofSource (table : BlockTable) (source : String) : Analysis :=
  let reading := Body.read source
  ofBody table reading.items (reading.flaws.filter (·.kind != .nameAfterDot))

end Analysis

end ColorTheme

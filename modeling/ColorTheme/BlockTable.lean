/-!
# The table of blocks

How each block of a document is read is data: a table holds one rule for each kind of color
block, in the order in which they are worked out.  Besides them there is `meta`, which holds
no colors.
-/

set_option autoImplicit false

namespace ColorTheme

/-- How one kind of block is read.  It may hold blocks of its own (`nesting`), its items may refer
to earlier ones of the same block (`selfReferencing`), its attributes may have to come from a
list (`allowedNames`), and in the blocks inside it some attributes are style flags and no
colors (`styled`). -/
structure BlockRule where
  name : String
  nesting : Bool
  selfReferencing : Bool
  allowedNames : Option (List String)
  styled : Bool
deriving Repr, DecidableEq, Inhabited

/-- The rules, in the order in which blocks are worked out. -/
abbrev BlockTable := List BlockRule

/-- The name of the block without colors. -/
def metaName : String := "meta"

/-- The name of the block that no document may lack. -/
def paletteName : String := "palette"

/-- The name of the block with the colors of a terminal. -/
def ansiName : String := "ansi"

/-- The sixteen colors of a terminal. -/
def ansiNames : List String :=
  ["black", "red", "green", "yellow", "blue", "magenta", "cyan", "white",
    "bright_black", "bright_red", "bright_green", "bright_yellow", "bright_blue",
    "bright_magenta", "bright_cyan", "bright_white"]

/-- The kinds of text decoration. -/
inductive StyleFlag
  | bold
  | italic
  | underline
deriving Repr, DecidableEq

/-- The attribute that sets a flag. -/
def StyleFlag.name : StyleFlag → String
  | .bold => "bold"
  | .italic => "italic"
  | .underline => "underline"

/-- The flag that an attribute sets. -/
def StyleFlag.ofName? (name : String) : Option StyleFlag :=
  [bold, italic, underline].find? (·.name == name)

namespace BlockTable

/-- The rules of the language: `palette`, `theme`, `ansi`, `syntax`. -/
def standard : BlockTable :=
  [{ name := paletteName, nesting := true, selfReferencing := true, allowedNames := none,
     styled := false },
   { name := "theme", nesting := true, selfReferencing := true, allowedNames := none,
     styled := false },
   { name := ansiName, nesting := false, selfReferencing := false, allowedNames := some ansiNames,
     styled := false },
   { name := "syntax", nesting := true, selfReferencing := true, allowedNames := none,
     styled := true }]

/-- The rule for blocks of the given name. -/
def rule? (table : BlockTable) (name : String) : Option BlockRule :=
  table.find? (·.name == name)

/-- A block of the given name may stand in a document. -/
def knows (table : BlockTable) (name : String) : Bool :=
  name == metaName || (table.rule? name).isSome

/-- The name of the block whose colors have styles. -/
def styledName? (table : BlockTable) : Option String :=
  (table.find? (·.styled)).map BlockRule.name

/-- The names of all blocks that may stand in a document. -/
def blockNames (table : BlockTable) : List String := metaName :: table.map BlockRule.name

end BlockTable

end ColorTheme

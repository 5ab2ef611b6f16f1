import ColorTheme.Diagnostic
import ColorTheme.Item

/-!
# Verdicts

Analysis comes to one verdict on every item that it reaches: the item is accepted, as a color, a
style flag, a group or a note, or it is rejected with one diagnostic.  The verdicts in their
order, the log, are all that analysis knows of the items behind it: which paths are taken, which
are defined, and every result is read off the log.
-/

set_option autoImplicit false

namespace ColorTheme

/-- The names from a block down to an item in it. -/
abbrev Path := List String

/-- A color and the expression that it comes from. -/
structure ColorLocation where
  span : Span
  color : Color
  isReference : Bool
deriving Repr, DecidableEq

/-- What analysis concludes about an item, or about the completeness of a block.  `path` is the
full path of the item and `name` the place of its name. -/
inductive Verdict
  | colored (path : Path) (name : Span) (location : ColorLocation)
  | flagged (path : Path) (name : Span) (flag : StyleFlag) (value : Bool)
  | opened (path : Path) (name : Span)
  | noted (key : String) (name : Span) (text : String)
  | rejected (taken : Option Path) (diagnostic : Diagnostic)
  | incomplete (diagnostic : Diagnostic)
deriving Repr, DecidableEq

namespace Verdict

/-- The path that the verdict defines, and where its name stands. -/
def symbol? : Verdict → Option (Path × Span)
  | colored path name _ => some (path, name)
  | flagged path name _ _ => some (path, name)
  | opened path name => some (path, name)
  | noted key name _ => some ([metaName, key], name)
  | rejected _ _ => none
  | incomplete _ => none

/-- The path that no later item may have.  An attribute takes its path even if its value is
rejected. -/
def taken? : Verdict → Option Path
  | rejected taken _ => taken
  | v => v.symbol?.map Prod.fst

/-- The diagnostic of a verdict that is not favorable. -/
def diagnostic? : Verdict → Option Diagnostic
  | rejected _ d => some d
  | incomplete d => some d
  | _ => none

/-- The color that the verdict resolves. -/
def location? : Verdict → Option ColorLocation
  | colored _ _ location => some location
  | _ => none

/-- The note that the verdict takes down. -/
def note? : Verdict → Option (String × String)
  | noted key _ text => some (key, text)
  | _ => none

/-- The style flag that the verdict sets, on the group with the given path. -/
def flag? : Verdict → Option (Path × StyleFlag × Bool)
  | flagged path _ flag value => some (path.dropLast, flag, value)
  | _ => none

end Verdict

/-- The verdicts on the items behind, the earliest first. -/
abbrev Log := List Verdict

namespace Log

/-- An item of this path has been met. -/
def takes (log : Log) (path : Path) : Bool := log.any fun v => v.taken? == some path

/-- An item of this path has been accepted. -/
def defines (log : Log) (path : Path) : Bool :=
  log.any fun v => v.symbol?.map Prod.fst == some path

/-- The value that was given to a style flag of the group with the given path. -/
def flag (log : Log) (group : Path) (flag : StyleFlag) : Bool :=
  log.any fun v => v.flag? == some (group, flag, true)

end Log

end ColorTheme

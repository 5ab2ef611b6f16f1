import ColorTheme.Text.Bytes

/-!
# Positions

A position is a line and a character on that line, both counted from zero, in characters and not
in bytes.  Here only a line feed ends a line.

* `Position.ofOffset` is the position of a byte offset.  Offsets past the end stand for the end,
  and an offset inside a character for the start of its line.
-/

set_option autoImplicit false

namespace ColorTheme

/-- A line and a character on it.  They have no greatest value; editors count with 32 bits, so this is
meant for texts of fewer than 2³² lines and characters. -/
structure Position where
  line : Nat
  character : Nat
deriving Repr, DecidableEq, Inhabited

/-- The position `offset` bytes into `cs`, when `cs` itself begins at `start`. -/
def Position.advance (start : Position) : List Char → Nat → Position
  | [], _ => start
  | _ :: _, 0 => start
  | c :: cs, offset + 1 =>
    if c.utf8Size ≤ offset + 1 then
      let next : Position :=
        if c = '\n' then ⟨start.line + 1, 0⟩ else ⟨start.line, start.character + 1⟩
      next.advance cs (offset + 1 - c.utf8Size)
    else ⟨start.line, 0⟩

/-- The position of byte `offset` of `text`. -/
def Position.ofOffset (text : List Char) (offset : Nat) : Position :=
  Position.advance ⟨0, 0⟩ text offset

/-- A range of positions, from the first up to the last. -/
structure Range where
  start : Position
  stop : Position
deriving Repr, DecidableEq, Inhabited

end ColorTheme

import ColorTheme.Uri.Address
import ColorTheme.Uri.Domain
import ColorTheme.Uri.Escape

/-!
# Hosts

* `Host.ofText?` reads the host of a scheme with domain names: a domain name, or an address.
* `Host.ofOpaque?` reads that of another scheme, where names have no structure.
-/

set_option autoImplicit false

namespace ColorTheme

/-- The host of a document: a name, or an address of either length. -/
inductive Host
  | name (text : List Char)
  | short (address : Nat)
  | long (pieces : List Nat)
deriving Repr, DecidableEq

namespace Host

/-- The text of a host. -/
def text : Host → List Char
  | name text => text
  | short address => Address.partsText address
  | long pieces => '[' :: Address.piecesText pieces ++ [']']

/-- The address between brackets. -/
def ofBrackets? (cs : List Char) : Option Host :=
  if cs.getLast? = some ']' then (Address.ofPieces? (cs.drop 1).dropLast).map long else none

/-- The host of a scheme with domain names. -/
def ofText? (cs : List Char) : Option Host :=
  if cs.head? = some '[' then ofBrackets? cs
  else
    (String.fromUTF8? ⟨(Uri.unescape cs).toArray⟩).bind fun meant =>
      (Domain.ofText? meant.toList).bind fun form =>
        if form.isEmpty then none
        else if Address.endsInNumber form then (Address.ofParts? form).map short
        else some (name form)

/-- Characters that no name of a host has, even one without structure. -/
def opaqueRefused : List Char := '\x00' :: " #/:<>?@[\\]^|".toList

/-- The host of a scheme without domain names. -/
def ofOpaque? (cs : List Char) : Option Host :=
  if cs.head? = some '[' then ofBrackets? cs
  else if cs.any opaqueRefused.contains then none
  else some (name (Uri.escapeAll [] cs))

end Host

end ColorTheme

import ColorTheme.Expr

/-!
# Items of a document

A document, and the inside of every block, is a list of items in the order of the source:
attributes `name = value` and blocks `name { … }`.
-/

set_option autoImplicit false

namespace ColorTheme

/-- An attribute `name = value`. -/
structure Attribute where
  name : Ident
  value : Expr
  span : Span
deriving Repr, Inhabited

/-- An item of a body. -/
inductive Item
  | assignment (a : Attribute)
  | block (kind : Ident) (body : List Item) (span : Span)
deriving Repr, Inhabited

/-- The items of a document or a block, in the order of the source. -/
abbrev Body := List Item

/-- A block `kind { body }`. -/
structure Block where
  kind : Ident
  body : Body
  span : Span
deriving Repr, Inhabited

namespace Item

/-- Where the item stands. -/
def span : Item → Span
  | assignment a => a.span
  | block _ _ s => s

/-- The name that the item begins with. -/
def name : Item → Ident
  | assignment a => a.name
  | block kind _ _ => kind

/-- The item as an attribute. -/
def assignment? : Item → Option Attribute
  | assignment a => some a
  | block _ _ _ => none

theorem assignment?_eq_some_iff {item : Item} {a : Attribute} :
    item.assignment? = some a ↔ item = .assignment a := by
  cases item <;> simp [assignment?]

/-- The item as a block. -/
def block? : Item → Option Block
  | assignment _ => none
  | block kind body span => some ⟨kind, body, span⟩

end Item

/-- The attributes of a body, in order. -/
def Body.attributes (body : Body) : List Attribute := body.filterMap Item.assignment?

/-- The blocks of a body, in order. -/
def Body.blocks (body : Body) : List Block := body.filterMap Item.block?

theorem Body.attributes_append (a b : Body) :
    Body.attributes (a ++ b) = Body.attributes a ++ Body.attributes b := by
  simp [Body.attributes]

end ColorTheme

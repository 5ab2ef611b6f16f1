import ColorTheme.Editor.Document
import ColorTheme.Entries

/-!
# The documents that are open

A store holds the open documents by the names the editor has for them.

* `Store.enter` and `Store.update` set a document, whether it is open or not.
* `Store.change?` makes edits one after the other, each in the text that the one before it left.
  Without any edit the document stays as it is, with its version.
-/

set_option autoImplicit false

namespace ColorTheme

/-- The open documents, by name. -/
abbrev Store := Entries String Document

namespace Store

/-- The document of the given name. -/
def document? (store : Store) (name : String) : Option Document := store.get? name

/-- Opens a document, in place of an older one of the same name. -/
def enter (store : Store) (name : String) (version : Int) (text : String) : Store :=
  store.put name ⟨version, text⟩

/-- Replaces the text of a document, and opens it if it is not open. -/
def update (store : Store) (name : String) (version : Int) (text : String) : Store :=
  match store.document? name with
  | some d => store.put name (d.withText version text)
  | none => store.enter name version text

/-- Makes edits in an open document; nothing if it is not open. -/
def change? (store : Store) (name : String) (version : Int) (edits : List Edit) : Option Store :=
  (store.document? name).map fun d =>
    store.put name (edits.foldl (fun d e => d.apply version e) d)

/-- Closes a document; nothing if it is not open. -/
def close? (store : Store) (name : String) : Option Store :=
  (store.document? name).map fun _ => store.filter fun entry => entry.1 != name

end Store

end ColorTheme

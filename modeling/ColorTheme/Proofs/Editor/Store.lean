import ColorTheme.Editor.Store
import ColorTheme.Proofs.Entries

/-!
# The open documents as a map

* `Store.document?_enter`, `Store.document?_of_change?`, `Store.document?_of_close?` : what each
  operation leaves under every name.
-/

set_option autoImplicit false

namespace ColorTheme

namespace Store

variable {store next : Store} {name : String} {version : Int} {edits : List Edit}

theorem document?_put (store : Store) (name : String) (d : Document) (key : String) :
    document? (store.put name d) key = if key = name then some d else store.document? key := by
  unfold document? Entries.put
  split
  · rename_i h
    rw [h, Entries.get?_alter_self]
  · rename_i h
    exact Entries.get?_alter_of_ne h _ _

/-- Opening puts the document under its name, whatever was there. -/
theorem document?_enter (store : Store) (name : String) (version : Int) (text key : String) :
    (store.enter name version text).document? key =
      if key = name then some ⟨version, text⟩ else store.document? key :=
  document?_put store name ⟨version, text⟩ key

/-- Edits change the document of the name, which is open, and no other. -/
theorem document?_of_change? (h : store.change? name version edits = some next) :
    ∃ d, store.document? name = some d ∧ ∀ key, next.document? key =
      if key = name then some (edits.foldl (fun d e => d.apply version e) d)
      else store.document? key := by
  unfold change? at h
  obtain ⟨d, hd, rfl⟩ := Option.map_eq_some_iff.1 h
  exact ⟨d, hd, document?_put store name _⟩

/-- Closing takes the document of the name away, and no other. -/
theorem document?_of_close? (h : store.close? name = some next) (key : String) :
    next.document? key = if key = name then none else store.document? key := by
  unfold close? at h
  obtain ⟨d, hd, rfl⟩ := Option.map_eq_some_iff.1 h
  exact Entries.get?_filter_ne store name key

end Store

end ColorTheme

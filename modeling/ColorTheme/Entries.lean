/-!
# Entries in the order of their making

A list of keys with values, where a new key goes to the end and a key that is there already keeps
its place.

* `get?` finds a value, `alter` changes or adds one, `put` writes one.
* `get?_alter_self` and `get?_alter_of_ne` : `alter` reaches its own key and no other.
* `keys_alter_of_mem` and `keys_alter_of_not_mem` : a present key moves nothing, a new one goes
  last.
-/

set_option autoImplicit false

namespace ColorTheme

/-- Keys with values, in the order in which the keys first came. -/
abbrev Entries (κ α : Type) := List (κ × α)

namespace Entries

variable {κ α : Type} [DecidableEq κ]

/-- The value of `key`. -/
def get? (key : κ) : Entries κ α → Option α
  | [] => none
  | (k, v) :: rest => if k = key then some v else get? key rest

/-- The entries with the value of `key` changed by `f`, which is given the old one. -/
def alter (key : κ) (f : Option α → α) : Entries κ α → Entries κ α
  | [] => [(key, f none)]
  | (k, v) :: rest => if k = key then (k, f (some v)) :: rest else (k, v) :: alter key f rest

/-- The entries with `value` for `key`. -/
def put (key : κ) (value : α) (entries : Entries κ α) : Entries κ α :=
  alter key (fun _ => value) entries

/-- The entries with all those of `more` written after each other. -/
def putAll (entries more : Entries κ α) : Entries κ α :=
  more.foldl (fun all (key, value) => put key value all) entries

/-- The keys, in order. -/
def keys (entries : Entries κ α) : List κ := entries.map Prod.fst

@[simp] theorem get?_nil (key : κ) : get? key ([] : Entries κ α) = none := rfl

@[simp] theorem get?_alter_self (key : κ) (f : Option α → α) (entries : Entries κ α) :
    get? key (alter key f entries) = some (f (get? key entries)) := by
  induction entries with
  | nil => simp [alter, get?]
  | cons e rest ih =>
    obtain ⟨k, v⟩ := e
    by_cases h : k = key <;> simp [alter, get?, h, ih]

theorem get?_alter_of_ne {key other : κ} (h : other ≠ key) (f : Option α → α)
    (entries : Entries κ α) : get? other (alter key f entries) = get? other entries := by
  induction entries with
  | nil => simp [alter, get?, h.symm]
  | cons e rest ih =>
    obtain ⟨k, v⟩ := e
    by_cases hk : k = key
    · subst hk; simp [alter, get?, h.symm]
    · simp [alter, get?, hk, ih]

theorem keys_alter_of_mem {key : κ} {entries : Entries κ α} (h : key ∈ keys entries)
    (f : Option α → α) : keys (alter key f entries) = keys entries := by
  induction entries with
  | nil => simp [keys] at h
  | cons e rest ih =>
    obtain ⟨k, v⟩ := e
    by_cases hk : k = key
    · simp [alter, keys, hk]
    · have : key ∈ keys rest := by
        simp [keys, Ne.symm hk] at h ⊢; exact h
      simpa [alter, keys, hk] using ih this

theorem keys_alter_of_not_mem {key : κ} {entries : Entries κ α} (h : key ∉ keys entries)
    (f : Option α → α) : keys (alter key f entries) = keys entries ++ [key] := by
  induction entries with
  | nil => simp [alter, keys]
  | cons e rest ih =>
    obtain ⟨k, v⟩ := e
    have hk : k ≠ key := by intro hk; subst hk; simp [keys] at h
    have : key ∉ keys rest := by
      intro hm; apply h; simp [keys] at hm ⊢; exact Or.inr hm
    simpa [alter, keys, hk] using ih this

end Entries

end ColorTheme

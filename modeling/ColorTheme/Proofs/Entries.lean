import ColorTheme.Entries
import Mathlib.Data.List.Nodup
import Mathlib.Data.List.Perm.Basic

/-!
# Entries as maps

* `Entries.mem_alter`, `Entries.nodup_keys_alter` : what a change leaves, and that it gives no key
  twice.
* `Entries.alter_alter_self`, `Entries.alter_alter_perm` : two changes one after the other, of one
  key and of two.
* `Entries.get?_eq_some_iff`, `Entries.get?_of_perm` : where each key stands once, all entries are
  found, and their order does not matter for it.
* `Entries.mapValues` : all values changed by one function, and how this goes with the rest.
* `Entries.Matches` : entries with the same keys, in any order, whose values are related.
-/

set_option autoImplicit false

namespace ColorTheme.Entries

variable {κ α β : Type}

/-! ## Keys -/

/-- The entries with all values changed. -/
def mapValues (f : α → β) (entries : Entries κ α) : Entries κ β :=
  entries.map fun entry => (entry.1, f entry.2)

@[simp] theorem mapValues_cons (f : α → β) (key : κ) (value : α) (rest : Entries κ α) :
    mapValues f ((key, value) :: rest) = (key, f value) :: rest.mapValues f := rfl

theorem keys_mapValues (f : α → β) (entries : Entries κ α) :
    keys (entries.mapValues f) = keys entries := by
  rw [keys, keys, mapValues, List.map_map]
  rfl

section

variable [DecidableEq κ] {key : κ} {f : Option α → α} {entries : Entries κ α}

/-- What is changed is the entry of the key, or is new. -/
theorem mem_alter {entry : κ × α} (h : entry ∈ alter key f entries) :
    entry ∈ entries ∨ ∃ old, entry = (key, f old) ∧ ∀ v, old = some v → (key, v) ∈ entries := by
  induction entries with
  | nil =>
    rw [alter, List.mem_singleton] at h
    exact .inr ⟨none, h, fun _ hv => by cases hv⟩
  | cons first rest ih =>
    obtain ⟨k, v⟩ := first
    rw [alter] at h
    split at h
    · rename_i hk
      rcases List.mem_cons.1 h with rfl | h
      · refine .inr ⟨some v, by rw [hk], fun w hw => ?_⟩
        obtain rfl := Option.some.inj hw
        rw [hk]
        exact List.mem_cons_self
      · exact .inl (List.mem_cons_of_mem _ h)
    · rcases List.mem_cons.1 h with rfl | h
      · exact .inl List.mem_cons_self
      · rcases ih h with h | ⟨old, heq, hold⟩
        · exact .inl (List.mem_cons_of_mem _ h)
        · exact .inr ⟨old, heq, fun w hw => List.mem_cons_of_mem _ (hold w hw)⟩

theorem mem_keys_alter {k : κ} : k ∈ keys (alter key f entries) ↔ k ∈ keys entries ∨ k = key := by
  by_cases hkey : key ∈ keys entries
  · rw [keys_alter_of_mem hkey]
    exact ⟨.inl, fun h => h.elim id fun hk => hk ▸ hkey⟩
  · rw [keys_alter_of_not_mem hkey, List.mem_append, List.mem_singleton]

theorem nodup_keys_alter (key : κ) (f : Option α → α) (h : (keys entries).Nodup) :
    (keys (alter key f entries)).Nodup := by
  by_cases hkey : key ∈ keys entries
  · rwa [keys_alter_of_mem hkey]
  · rw [keys_alter_of_not_mem hkey, List.nodup_append]
    refine ⟨h, List.nodup_singleton _, ?_⟩
    intro k hk k' hk' heq
    rw [List.mem_singleton] at hk'
    apply hkey
    rwa [← hk', ← heq]

/-- However often a key is written, it stands there once. -/
theorem nodup_keys_putAll (more : Entries κ α) (h : (keys entries).Nodup) :
    (keys (putAll entries more)).Nodup := by
  induction more generalizing entries with
  | nil => exact h
  | cons first more ih => exact ih (nodup_keys_alter first.1 _ h)

/-! ## Two changes -/

/-- Two changes of one key are one change of it. -/
theorem alter_alter_self (key : κ) (f g : Option α → α) (entries : Entries κ α) :
    alter key g (alter key f entries) = alter key (fun old => g (some (f old))) entries := by
  induction entries with
  | nil => simp [alter]
  | cons first rest ih =>
    obtain ⟨k, v⟩ := first
    by_cases h : k = key <;> simp [alter, h, ih]

/-- Changes of two keys go together in any order, but for the places of new keys. -/
theorem alter_alter_perm {key other : κ} (h : other ≠ key) (f g : Option α → α)
    (entries : Entries κ α) :
    (alter key f (alter other g entries)).Perm (alter other g (alter key f entries)) := by
  induction entries with
  | nil =>
    simp only [alter, if_neg h, if_neg h.symm]
    exact .swap _ _ _
  | cons first rest ih =>
    obtain ⟨k, v⟩ := first
    by_cases hk : k = key
    · subst hk
      simp only [alter, if_neg h.symm, if_true]
      exact .refl _
    · by_cases hother : k = other
      · subst hother
        simp only [alter, if_neg h, if_true]
        exact .refl _
      · simp only [alter, if_neg hk, if_neg hother]
        exact ih.cons _

/-! ## What is found -/

theorem get?_eq_none (h : key ∉ entries.keys) : entries.get? key = none := by
  induction entries with
  | nil => rfl
  | cons first rest ih =>
    obtain ⟨k, v⟩ := first
    rw [keys, List.map_cons, List.mem_cons, not_or] at h
    rw [get?, if_neg (Ne.symm h.1)]
    exact ih h.2

theorem get?_eq_some_iff (h : entries.keys.Nodup) {value : α} :
    entries.get? key = some value ↔ (key, value) ∈ entries := by
  induction entries with
  | nil => simp
  | cons first rest ih =>
    obtain ⟨k, v⟩ := first
    obtain ⟨hfresh, hrest⟩ := List.nodup_cons.1 h
    rw [get?, List.mem_cons, Prod.mk.injEq]
    split
    · rename_i hk
      have hnot : (key, value) ∉ rest := by
        intro hmem
        apply hfresh
        exact List.mem_map.2 ⟨_, hmem, hk.symm⟩
      simp [hk, hnot, eq_comm]
    · rename_i hk
      rw [ih hrest]
      simp [Ne.symm hk]

/-- Where each key stands once, the order does not matter for what is found. -/
theorem get?_of_perm {es fs : Entries κ α} (h : es.Perm fs) (hkeys : fs.keys.Nodup) (key : κ) :
    es.get? key = fs.get? key := by
  have hkeys' : es.keys.Nodup := (h.map Prod.fst).nodup_iff.2 hkeys
  apply Option.ext
  intro value
  rw [get?_eq_some_iff hkeys', get?_eq_some_iff hkeys, h.mem_iff]

/-- Taking a name away takes away what is found under it, and nothing else. -/
theorem get?_filter_ne (entries : Entries κ α) (name key : κ) :
    get? key (entries.filter fun entry => entry.1 != name) =
      if key = name then none else entries.get? key := by
  induction entries with
  | nil => simp
  | cons entry rest ih =>
    obtain ⟨k, v⟩ := entry
    by_cases hk : k = name
    · subst hk
      rw [List.filter_cons_of_neg (by simp), ih]
      split
      · rfl
      · rename_i hkey
        simp [get?, Ne.symm hkey]
    · rw [List.filter_cons_of_pos (by simpa using hk), get?, get?, ih]
      by_cases hkey : k = key
      · subst hkey
        simp [hk]
      · simp [hkey]

/-! ## All values -/

theorem get?_mapValues (f : α → β) (key : κ) (entries : Entries κ α) :
    get? key (entries.mapValues f) = (get? key entries).map f := by
  induction entries with
  | nil => rfl
  | cons entry rest ih =>
    unfold mapValues at ih ⊢
    rw [List.map_cons, get?, get?, ih]
    split <;> rfl

/-- To change a value and then all is to change all and then the value. -/
theorem mapValues_alter (f : α → β) (change : Option α → α) (change' : Option β → β)
    (h : ∀ old, f (change old) = change' (old.map f)) (key : κ) (entries : Entries κ α) :
    (alter key change entries).mapValues f = alter key change' (entries.mapValues f) := by
  induction entries with
  | nil => exact congrArg (fun v => [(key, v)]) (h none)
  | cons entry rest ih =>
    unfold mapValues at ih ⊢
    rw [List.map_cons, alter, alter, ← ih]
    split
    · exact congrArg (fun v => (entry.1, v) :: _) (h (some entry.2))
    · rfl

theorem mapValues_put (f : α → β) (key : κ) (value : α) (entries : Entries κ α) :
    (put key value entries).mapValues f = put key (f value) (entries.mapValues f) :=
  mapValues_alter f (fun _ => value) (fun _ => f value) (fun _ => rfl) key entries

theorem mapValues_putAll (f : α → β) (entries more : Entries κ α) :
    (putAll entries more).mapValues f = putAll (entries.mapValues f) (more.mapValues f) := by
  induction more generalizing entries with
  | nil => rfl
  | cons entry more ih =>
    have hrest := ih (put entry.1 entry.2 entries)
    rw [mapValues_put] at hrest
    exact hrest

end

/-! ## Entries in any order -/

/-- Each entry of the first has one of the same key in the second, with a value that `R` relates
to its own, and no entry of the second is left over. -/
inductive Matches (R : α → β → Prop) : Entries String α → Entries String β → Prop
  | nil : Matches R [] []
  | cons {key : String} {a : α} {b : β} {es : Entries String α} {fs gs : Entries String β}
      (value : R a b) (others : Matches R es fs) (order : gs.Perm ((key, b) :: fs)) :
      Matches R ((key, a) :: es) gs

namespace Matches

theorem refl {R : α → α → Prop} {es : Entries String α} (h : ∀ e ∈ es, R e.2 e.2) :
    es.Matches R es := by
  induction es with
  | nil => exact .nil
  | cons first rest ih =>
    rw [List.forall_mem_cons] at h
    exact .cons h.1 (ih h.2) (.refl _)

theorem perm {R : α → β → Prop} {es : Entries String α} {fs gs : Entries String β}
    (h : es.Matches R fs) (hperm : gs.Perm fs) : es.Matches R gs := by
  cases h with
  | nil =>
    rw [hperm.eq_nil]
    exact .nil
  | cons value others order => exact .cons value others (hperm.trans order)

/-- Two changes of one key leave entries that differ as the changed values do. -/
theorem alter {R : α → α → Prop} (h : ∀ v, R v v) {f g : Option α → α}
    (hvalue : ∀ old, R (f old) (g old)) (key : String) (es : Entries String α) :
    (es.alter key f).Matches R (es.alter key g) := by
  induction es with
  | nil => exact .cons (hvalue none) .nil (.refl _)
  | cons first rest ih =>
    obtain ⟨k, v⟩ := first
    rw [Entries.alter, Entries.alter]
    split
    · exact .cons (hvalue (some v)) (.refl fun e _ => h e.2) (.refl _)
    · exact .cons (h v) ih (.refl _)

/-- Entries with the same values are the same but for their order. -/
theorem perm_of_eq {es fs : Entries String α} (h : es.Matches Eq fs) : fs.Perm es := by
  induction h with
  | nil => exact .nil
  | cons value others order ih =>
    subst value
    exact order.trans (ih.cons _)

end Matches

end ColorTheme.Entries

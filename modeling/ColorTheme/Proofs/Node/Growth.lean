import ColorTheme.Proofs.Node.Reference
import Mathlib.Data.List.Forall2

/-!
# Values in growing trees

When a tree grows, an expression may change its value: what was a color by itself may have become
a group with a color of its own.  What it stands for does not change.

* `Node.Below` : a tree has the nodes and the colors of a smaller one.
* `Node.valueFrom_mono`, `evaluate_mono` : a value in the smaller trees is kept in the larger ones,
  as the color, the number or the truth value that it is.
* `Scopes.resolve_mono` : so is the color of an expression.
-/

set_option autoImplicit false

namespace ColorTheme

/-- The tree `m` has the nodes of `n` with their colors, and perhaps more. -/
structure Node.Below (n m : Node) : Prop where
  nodes : ∀ path, (n.get? path).isSome → (m.get? path).isSome
  colors : ∀ path c, n.colorAt path = some c → m.colorAt path = some c

/-- The value `w` is the number or the truth value that `v` is, and stands for the color that `v`
stands for. -/
structure Value.Keeps (v w : Value) : Prop where
  color : ∀ c, v.color = .ok c → w.color = .ok c
  number : ∀ x, v = .number x → w = .number x
  truth : ∀ b, v = .truth b → w = .truth b

theorem Value.Keeps.refl (v : Value) : v.Keeps v :=
  ⟨fun _ h => h, fun _ h => h, fun _ h => h⟩

namespace Node

variable {n m child : Node} {name : String}

theorem Below.refl (n : Node) : n.Below n := ⟨fun _ h => h, fun _ _ h => h⟩

theorem Below.exists_child (h : n.Below m) (hchild : n.child? name = some child) :
    ∃ grown, m.child? name = some grown ∧ child.Below grown := by
  have hsome : (m.get? [name]).isSome := h.nodes [name] (by rw [get?_cons, hchild]; rfl)
  rw [get?_cons] at hsome
  cases hgrown : m.child? name with
  | none => rw [hgrown] at hsome; cases hsome
  | some grown =>
    refine ⟨grown, rfl, ?_, ?_⟩
    · intro path hpath
      have := h.nodes (name :: path) (by rw [get?_cons, hchild]; exact hpath)
      rw [get?_cons, hgrown] at this
      exact this
    · intro path c hc
      have := h.colors (name :: path) c (by rw [colorAt_cons_of_child? hchild]; exact hc)
      rw [colorAt_cons_of_child? hgrown] at this
      exact this

theorem ReservesColor.of_child (h : n.ReservesColor) (hchild : n.child? name = some child) :
    child.ReservesColor := by
  intro path
  have := h (name :: path)
  rw [List.cons_append, get?_cons, hchild] at this
  exact this

theorem ReservesColor.child?_eq_none (h : n.ReservesColor) : n.child? colorKey = none := by
  have := h []
  rw [List.nil_append, get?_cons] at this
  cases hchild : n.child? colorKey with
  | none => rfl
  | some child => rw [hchild] at this; cases this

theorem Below.value_keeps (h : n.Below m) : n.value.Keeps m.value where
  color c hc := by
    rw [color_value] at hc ⊢
    exact h.colors [] c hc
  number x hx := by
    unfold value at hx
    split at hx <;> cases hx
  truth b hb := by
    unfold value at hb
    split at hb <;> cases hb

/-- **A path into a tree keeps what it stands for when the tree grows.** -/
theorem valueFrom_mono (h : n.Below m) (hm : m.ReservesColor) (walked path : List String)
    {v : Value} (hv : n.valueFrom walked path = .ok v) :
    ∃ w, m.valueFrom walked path = .ok w ∧ v.Keeps w := by
  induction path generalizing n m walked with
  | nil =>
    rw [valueFrom] at hv
    cases hv
    exact ⟨m.value, rfl, h.value_keeps⟩
  | cons name path ih =>
    cases hchild : n.child? name with
    | some child =>
      obtain ⟨grown, hgrown, hbelow⟩ := h.exists_child hchild
      rw [valueFrom, hchild] at hv
      rw [valueFrom, hgrown]
      exact ih hbelow (hm.of_child hgrown) _ hv
    | none =>
      -- only a last `color` has a value without a node, and the larger tree has none for it either
      rw [valueFrom, hchild] at hv
      cases hcolor : n.color with
      | none => rw [hcolor] at hv; cases hv
      | some c =>
        simp only [hcolor] at hv
        split at hv
        · rename_i hlast
          obtain ⟨rfl, rfl⟩ := hlast
          cases hv
          have hc : m.color = some c := h.colors [] c hcolor
          refine ⟨.text c.hex, ?_, .refl _⟩
          rw [valueFrom, hm.child?_eq_none, hc]
          simp
        · split at hv <;> cases hv

end Node

/-- The scopes `t` have the trees of `s`, grown, and no node of these is called `color`. -/
def Scopes.Below (s t : Scopes) : Prop :=
  ∀ name tree, s.get? name = some tree →
    ∃ grown, t.get? name = some grown ∧ tree.Below grown ∧ grown.ReservesColor

section

variable {s t : Scopes}

theorem Scopes.follow_mono (h : s.Below t) (root : String) (rest : List String) {v : Value}
    (hv : s.follow root rest = .ok v) : ∃ w, t.follow root rest = .ok w ∧ v.Keeps w := by
  unfold Scopes.follow at hv ⊢
  split at hv
  · rename_i tree htree
    obtain ⟨grown, hgrown, hbelow, hreserves⟩ := h root tree htree
    rw [hgrown]
    exact Node.valueFrom_mono hbelow hreserves [root] rest hv
  · cases hv

/-- A function looks at the color of its first argument and at the number of its second. -/
theorem Builtin.apply_of_keeps (function : Builtin) {vs ws : List Value} {v : Value}
    (h : List.Forall₂ Value.Keeps vs ws) (hv : function.apply vs = .ok v) :
    function.apply ws = .ok v := by
  unfold Builtin.apply at hv
  split at hv
  · rename_i subject percent
    obtain ⟨subject', _, hsubject, hbehind, rfl⟩ := List.forall₂_cons_left_iff.1 h
    obtain ⟨percent', _, hpercent, hnil, rfl⟩ := List.forall₂_cons_left_iff.1 hbehind
    obtain rfl := List.forall₂_nil_left_iff.1 hnil
    split at hv
    · cases hv
    · cases hv
    · rename_i color hcolor
      split at hv
      · rename_i x
        have hcolor' := hsubject.color color hcolor
        have hpercent' := hpercent.number x rfl
        subst hpercent'
        unfold Builtin.apply
        simp only [hcolor']
        exact hv
      · cases hv
  · cases hv

mutual

/-- **Evaluation is monotone.**  An expression that has a value in the smaller trees keeps it. -/
theorem evaluate_mono (h : s.Below t) : ∀ (e : Expr) (v : Value), evaluate s e = .ok v →
    ∃ w, evaluate t e = .ok w ∧ v.Keeps w
  | .quoted text _, v, hv => ⟨v, hv, .refl v⟩
  | .hex text _, v, hv => ⟨v, hv, .refl v⟩
  | .number value _, v, hv => ⟨v, hv, .refl v⟩
  | .truth value _, v, hv => ⟨v, hv, .refl v⟩
  | .path root rest _, v, hv => by
    rw [evaluate] at hv ⊢
    exact Scopes.follow_mono h root.name _ hv
  | .call name args _, v, hv => by
    rw [evaluate] at hv ⊢
    split at hv
    · cases hv
    · rename_i function hfunction
      split at hv
      · cases hv
      · rename_i values hvalues
        obtain ⟨grown, hgrown, hkeeps⟩ := evaluateAll_mono h args values hvalues
        simp only [hgrown]
        exact ⟨v, function.apply_of_keeps hkeeps hv, .refl v⟩

theorem evaluateAll_mono (h : s.Below t) : ∀ (args : List Expr) (vs : List Value),
    evaluateAll s args = .ok vs → ∃ ws, evaluateAll t args = .ok ws ∧ List.Forall₂ Value.Keeps vs ws
  | [], vs, hvs => by
    rw [evaluateAll] at hvs
    cases hvs
    exact ⟨[], rfl, .nil⟩
  | arg :: args, vs, hvs => by
    rw [evaluateAll] at hvs ⊢
    split at hvs
    · cases hvs
    · rename_i value hvalue
      split at hvs
      · cases hvs
      · rename_i values hvalues
        cases hvs
        obtain ⟨w, hw, hkeeps⟩ := evaluate_mono h arg value hvalue
        obtain ⟨ws, hws, hkeepsAll⟩ := evaluateAll_mono h args values hvalues
        simp only [hw, hws]
        exact ⟨w :: ws, rfl, .cons hkeeps hkeepsAll⟩

end

/-- **An expression that resolves to a color resolves to it in all larger trees.** -/
theorem Scopes.resolve_mono (h : s.Below t) {e : Expr} {c : Color} (hc : s.resolve e = .ok c) :
    t.resolve e = .ok c := by
  unfold Scopes.resolve at hc ⊢
  cases hv : evaluate s e with
  | error failure => rw [hv] at hc; cases hc
  | ok v =>
    rw [hv] at hc
    obtain ⟨w, hw, hkeeps⟩ := evaluate_mono h e v hv
    rw [hw]
    exact hkeeps.color c hc

end

end ColorTheme

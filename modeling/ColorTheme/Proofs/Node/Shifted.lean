import ColorTheme.Proofs.Node.Reference

/-!
# What a color is made of

A value that is a color is a text or a reference, perhaps inside of calls that shift its lightness.

* `Expr.Shifts` : one expression is another inside of such calls.
* `Scopes.exists_shifts` : a value that resolves to a color comes from a text or a reference in
  this way.
* `Expr.Shifts.resolve_eq` : then it resolves wherever its text or its reference does, and fails
  for the same reason.
* `Scopes.exists_reference` : so if it resolves in some trees and not in others, it is because of
  one reference.
* `Scopes.code_of_resolve_path` : a path that ends in `color` fails only because it names nothing.
-/

set_option autoImplicit false

namespace ColorTheme

/-- The color with its lightness shifted by a function. -/
def Builtin.shift (function : Builtin) (percent : Float) (c : Color) : Color :=
  match function with
  | .brighten => c.brighten percent
  | .darken => c.darken percent

/-- The second expression is the first, perhaps inside of calls that shift its lightness. -/
inductive Expr.Shifts (core : Expr) : Expr → Prop
  | self : Shifts core core
  | call {inner : Expr} {name : Ident} {function : Builtin} {percent : Float}
      {number span : Span} (known : Builtin.ofName? name.name = some function)
      (shifted : Shifts core inner) :
      Shifts core (.call name [inner, .number percent number] span)

/-! ## What a path leads to -/

namespace Node

variable {n : Node} {walked path : List String} {v : Value} {failure : EvalError}

/-- A path leads to a color, as a text, or to the part of the tree that it names. -/
theorem valueFrom_eq_ok (h : n.valueFrom walked path = .ok v) :
    (∃ c : Color, v = .text c.hex) ∨ ∃ m, v = .tree m ∧ n.get? path = some m := by
  induction path generalizing n walked with
  | nil =>
    rw [valueFrom] at h
    cases h
    unfold value
    split
    · exact .inl ⟨_, rfl⟩
    · exact .inr ⟨n, rfl, rfl⟩
  | cons name path ih =>
    rw [valueFrom] at h
    rw [get?_cons]
    cases hchild : n.child? name with
    | some child =>
      rw [hchild] at h
      exact ih h
    | none =>
      rw [hchild] at h
      dsimp only at h
      split at h
      · split at h
        · cases h
          exact .inl ⟨_, rfl⟩
        · split at h <;> cases h
      · cases h

/-- A path that leads nowhere is reported as one that names nothing. -/
theorem code_of_valueFrom (h : n.valueFrom walked path = .error failure) :
    failure.code = "E2001" := by
  induction path generalizing n walked with
  | nil =>
    rw [valueFrom] at h
    cases h
  | cons name path ih =>
    rw [valueFrom] at h
    split at h
    · exact ih h
    · split at h
      · split at h
        · cases h
        · split at h <;> cases h <;> rfl
      · cases h
        rfl

end Node

namespace Scopes

variable {scopes : Scopes} {root : Ident} {rest : List Ident} {span : Span} {failure : EvalError}

theorem resolve_path (scopes : Scopes) (root : Ident) (rest : List Ident) (span : Span) :
    scopes.resolve (.path root rest span) =
      (scopes.follow root.name (rest.map Ident.name)).bind Value.color := by
  rw [resolve, evaluate]

/-- A path may lack a color, but it is never of a type that has none. -/
theorem resolve_path_ne (scopes : Scopes) (root : Ident) (rest : List Ident) (span : Span)
    (found : ValueType) :
    scopes.resolve (.path root rest span) ≠ .error (.notAColor found) := by
  intro h
  rw [resolve_path, follow] at h
  split at h
  · rename_i tree htree
    cases hvalue : tree.valueFrom [root.name] (rest.map Ident.name) with
    | error failure =>
      rw [hvalue] at h
      cases h
      have hcode := Node.code_of_valueFrom hvalue
      revert hcode
      simp [EvalError.code]
    | ok v =>
      rw [hvalue] at h
      rcases Node.valueFrom_eq_ok hvalue with ⟨c, rfl⟩ | ⟨m, rfl, -⟩
      · simp [Except.bind] at h
      · simp only [Except.bind, Value.color] at h
        split at h <;> cases h
  · cases h

/-- **A path that ends in `color` fails only because it names nothing**: where no node is called
`color`, it does not lead to a part of a tree. -/
theorem code_of_resolve_path
    (hreserves : ∀ tree, scopes.get? root.name = some tree → tree.ReservesColor)
    (hlast : (rest.map Ident.name).getLast? = some colorKey)
    (h : scopes.resolve (.path root rest span) = .error failure) : failure.code = "E2001" := by
  rw [resolve_path, follow] at h
  split at h
  · rename_i tree htree
    cases hvalue : tree.valueFrom [root.name] (rest.map Ident.name) with
    | error failure =>
      rw [hvalue] at h
      cases h
      exact Node.code_of_valueFrom hvalue
    | ok v =>
      rw [hvalue] at h
      rcases Node.valueFrom_eq_ok hvalue with ⟨c, rfl⟩ | ⟨m, rfl, hm⟩
      · simp [Except.bind] at h
      · obtain ⟨q, hq⟩ := List.getLast?_eq_some_iff.1 hlast
        rw [hq, hreserves tree htree q] at hm
        cases hm
  · cases h
    rfl

end Scopes

/-! ## What a call comes to -/

theorem Builtin.apply_eq_ok {function : Builtin} {args : List Value} {v : Value}
    (h : function.apply args = .ok v) :
    ∃ subject percent c, args = [subject, .number percent] ∧ subject.color = .ok c ∧
      v = .text (function.shift percent c).hex := by
  unfold Builtin.apply at h
  split at h
  · rename_i subject percent
    split at h
    · cases h
    · cases h
    · rename_i c hc
      split at h
      · rename_i x
        refine ⟨subject, x, c, rfl, hc, ?_⟩
        cases function <;> cases h <;> rfl
      · cases h
  · cases h

theorem Builtin.apply_of_color {subject : Value} {c : Color} (function : Builtin) (percent : Float)
    (h : subject.color = .ok c) :
    function.apply [subject, .number percent] = .ok (.text (function.shift percent c).hex) := by
  unfold Builtin.apply
  simp only [h]
  cases function <;> rfl

theorem Builtin.apply_of_no_color {subject : Value} {failure : EvalError} (function : Builtin)
    (percent : Value) (h : subject.color = .error failure)
    (hne : ∀ found, failure ≠ .notAColor found) :
    function.apply [subject, percent] = .error failure := by
  unfold Builtin.apply
  simp only [h]
section

variable {scopes : Scopes} {e core : Expr} {c : Color}

/-- Only a number is worth a number. -/
theorem exists_number_of_evaluate {x : Float} (h : evaluate scopes e = .ok (.number x)) :
    ∃ span, e = .number x span := by
  cases e with
  | number value span =>
    cases h
    exact ⟨span, rfl⟩
  | quoted text span | hex text span | truth value span => cases h
  | path root rest span =>
    rw [evaluate, Scopes.follow] at h
    split at h
    · rcases Node.valueFrom_eq_ok h with ⟨c, hv⟩ | ⟨m, hv, -⟩ <;> cases hv
    · cases h
  | call name args span =>
    rw [evaluate] at h
    split at h
    · cases h
    · split at h
      · cases h
      · obtain ⟨_, _, _, -, -, hv⟩ := Builtin.apply_eq_ok h
        cases hv

theorem evaluateAll_eq_ok {args : List Expr} {values : List Value}
    (h : evaluateAll scopes args = .ok values) :
    List.Forall₂ (fun arg value => evaluate scopes arg = .ok value) args values := by
  induction args generalizing values with
  | nil =>
    rw [evaluateAll] at h
    cases h
    exact .nil
  | cons arg args ih =>
    rw [evaluateAll] at h
    split at h
    · cases h
    · rename_i value hvalue
      split at h
      · cases h
      · rename_i rest hrest
        cases h
        exact .cons hvalue (ih hrest)

/-- A call resolves to a color if it shifts an expression that does. -/
theorem Scopes.resolve_call_eq_ok {name : Ident} {args : List Expr} {span : Span}
    (h : scopes.resolve (.call name args span) = .ok c) :
    ∃ function inner percent number c', Builtin.ofName? name.name = some function ∧
      args = [inner, .number percent number] ∧ scopes.resolve inner = .ok c' := by
  rw [resolve, evaluate] at h
  split at h
  · cases h
  · rename_i function hfunction
    split at h
    · cases h
    · rename_i values hvalues
      cases hvalue : function.apply values with
      | error failure =>
        rw [hvalue] at h
        cases h
      | ok value =>
        obtain ⟨subject, percent, c', rfl, hsubject, -⟩ := Builtin.apply_eq_ok hvalue
        cases evaluateAll_eq_ok hvalues with
        | @cons inner _ _ _ hinner hbehind =>
        cases hbehind with
        | @cons last _ _ _ hlast hnil =>
        cases hnil
        obtain ⟨number, rfl⟩ := exists_number_of_evaluate hlast
        exact ⟨function, inner, percent, number, c', hfunction, rfl,
          by rw [resolve, hinner]; exact hsubject⟩

/-- A call that shifts an expression comes to its color, shifted, or fails for the same reason. -/
theorem Scopes.resolve_shift {name : Ident} {function : Builtin} {percent : Float}
    {number span : Span} (hfunction : Builtin.ofName? name.name = some function)
    (hcolor : ∀ found, scopes.resolve e ≠ .error (.notAColor found)) :
    scopes.resolve (.call name [e, .number percent number] span) =
      (scopes.resolve e).map (function.shift percent) := by
  have hargs : evaluateAll scopes [e, .number percent number] =
      (evaluate scopes e).map fun value => [value, .number percent] := by
    simp only [evaluateAll, evaluate]
    cases evaluate scopes e <;> rfl
  rw [resolve, evaluate, hfunction]
  dsimp only
  rw [hargs]
  unfold resolve at hcolor ⊢
  cases hvalue : evaluate scopes e with
  | error failure => rfl
  | ok value =>
    rw [hvalue] at hcolor
    show (function.apply [value, .number percent]).bind Value.color =
      value.color.map (function.shift percent)
    have hcolor : ∀ found, value.color ≠ .error (.notAColor found) := hcolor
    cases hc : value.color with
    | ok c =>
      rw [function.apply_of_color percent hc]
      simp only [Except.bind, Value.color_hex, Except.map]
    | error failure =>
      rw [function.apply_of_no_color _ hc fun found heq => hcolor found (by rw [hc, heq])]
      rfl

/-! ## Shifted expressions -/

namespace Expr.Shifts

theorem references_eq (h : core.Shifts e) : e.references = core.references := by
  induction h with
  | self => rfl
  | call known shifted ih =>
    simp only [references, referencesOfAll, List.append_nil]
    exact ih

/-- **A shifted expression resolves wherever its core does**, and fails for the same reason. -/
theorem resolve_eq (h : core.Shifts e) : ∃ shift : Color → Color, ∀ scopes : Scopes,
    (∀ found, scopes.resolve core ≠ .error (.notAColor found)) →
      scopes.resolve e = (scopes.resolve core).map shift := by
  induction h with
  | self =>
    refine ⟨id, fun scopes _ => ?_⟩
    cases scopes.resolve core <;> rfl
  | @call inner name function percent number span known shifted ih =>
    obtain ⟨shift, hshift⟩ := ih
    refine ⟨function.shift percent ∘ shift, fun scopes hcolor => ?_⟩
    have hinner := hshift scopes hcolor
    have hkept : ∀ found, scopes.resolve inner ≠ .error (.notAColor found) := by
      intro found hfailed
      rw [hinner] at hfailed
      cases hcore : scopes.resolve core with
      | ok c =>
        rw [hcore] at hfailed
        cases hfailed
      | error failure =>
        rw [hcore] at hfailed
        cases hfailed
        exact hcolor found hcore
    rw [Scopes.resolve_shift known hkept, hinner]
    cases scopes.resolve core <;> simp only [Except.map, Function.comp_apply]

end Expr.Shifts

mutual

/-- **A value that resolves to a color comes from a text or a reference that does.** -/
theorem Scopes.exists_shifts : ∀ (e : Expr) {c : Color}, scopes.resolve e = .ok c →
    ∃ core : Expr, core.Shifts e ∧ (∃ c', scopes.resolve core = .ok c') ∧
      (core.references = [] ∧ (∀ other : Scopes, other.resolve core = scopes.resolve core) ∨
        ∃ root rest span, core = .path root rest span)
  | .quoted text span, c, h =>
    ⟨_, .self, ⟨c, h⟩, .inl ⟨rfl, fun _ => by simp only [resolve, evaluate]⟩⟩
  | .hex text span, c, h =>
    ⟨_, .self, ⟨c, h⟩, .inl ⟨rfl, fun _ => by simp only [resolve, evaluate]⟩⟩
  | .number value span, c, h =>
    ⟨_, .self, ⟨c, h⟩, .inl ⟨rfl, fun _ => by simp only [resolve, evaluate]⟩⟩
  | .truth value span, c, h =>
    ⟨_, .self, ⟨c, h⟩, .inl ⟨rfl, fun _ => by simp only [resolve, evaluate]⟩⟩
  | .path root rest span, c, h => ⟨_, .self, ⟨c, h⟩, .inr ⟨root, rest, span, rfl⟩⟩
  | .call name args span, c, h => by
    obtain ⟨function, inner, percent, number, c', hfunction, hargs, hinner⟩ :=
      resolve_call_eq_ok h
    have hmem : inner ∈ args := by
      rw [hargs]
      exact List.mem_cons_self
    obtain ⟨core, hshifts, hcore⟩ := Scopes.exists_shifts_of_mem args hmem hinner
    refine ⟨core, ?_, hcore⟩
    rw [hargs]
    exact .call hfunction hshifts

theorem Scopes.exists_shifts_of_mem : ∀ (args : List Expr) {e : Expr} {c : Color}, e ∈ args →
    scopes.resolve e = .ok c →
    ∃ core : Expr, core.Shifts e ∧ (∃ c', scopes.resolve core = .ok c') ∧
      (core.references = [] ∧ (∀ other : Scopes, other.resolve core = scopes.resolve core) ∨
        ∃ root rest span, core = .path root rest span)
  | [], e, c, he, h => absurd he List.not_mem_nil
  | arg :: args, e, c, he, h => by
    rcases List.mem_cons.1 he with heq | he
    · rw [heq] at h ⊢
      exact Scopes.exists_shifts arg h
    · exact Scopes.exists_shifts_of_mem args he h

end

/-- **A value that resolves in some trees fails in others because of its one reference.** -/
theorem Scopes.exists_reference {other : Scopes} {failure : EvalError}
    (h : scopes.resolve e = .ok c) (hfailed : other.resolve e = .error failure) :
    ∃ root rest span, e.references = [(root :: rest).map Ident.name] ∧
      (∃ c', scopes.resolve (.path root rest span) = .ok c') ∧
      other.resolve (.path root rest span) = .error failure := by
  obtain ⟨core, hshifts, ⟨c', hcore⟩, ⟨-, hsame⟩ | ⟨root, rest, span, rfl⟩⟩ :=
    Scopes.exists_shifts e h
  · obtain ⟨shift, hshift⟩ := hshifts.resolve_eq
    have hresolved : other.resolve core = .ok c' := (hsame other).trans hcore
    have hok := hshift other fun found hne => by
      rw [hresolved] at hne
      cases hne
    rw [hresolved, hfailed] at hok
    cases hok
  · obtain ⟨shift, hshift⟩ := hshifts.resolve_eq
    refine ⟨root, rest, span, hshifts.references_eq, ⟨c', hcore⟩, ?_⟩
    have hmap := hshift other (Scopes.resolve_path_ne other root rest span)
    rw [hfailed] at hmap
    cases hpath : other.resolve (.path root rest span) with
    | ok found =>
      rw [hpath] at hmap
      cases hmap
    | error cause =>
      rw [hpath] at hmap
      cases hmap
      rfl

end

end ColorTheme

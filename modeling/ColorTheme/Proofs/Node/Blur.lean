import ColorTheme.Proofs.Entries
import ColorTheme.Proofs.Item.Retouch
import ColorTheme.Value
import Mathlib.Data.List.Forall2

/-!
# Values whose colors look alike

A `Blur` says which colors look alike: all of them, or each only like itself, or anything between
that the functions of the language respect.  Trees look alike if they differ in colors that do.

* `Blur.node_setColor` : trees that look alike do so after like updates.
* `Blur.valueFrom_alike`, `Blur.evaluate_alike` : expressions that differ in places, and in literals
  of colors that look alike, have values that look alike in such trees, or fail for the same reason.
-/

set_option autoImplicit false

namespace ColorTheme

/-- Colors look alike if the same is seen of them.  They still do after a shift of lightness. -/
structure Blur where
  see : Color → Color
  shift : ∀ {c d : Color}, see d = see c →
    ∀ x, see (d.shiftLightness x) = see (c.shiftLightness x)

namespace Blur

/-- All colors look alike. -/
def full : Blur := ⟨fun _ => default, fun _ _ => rfl⟩

variable (b : Blur)

mutual

/-- What is seen of a tree. -/
def node : Node → Node
  | .mk color children => .mk (color.map b.see) (nodes children)

/-- What is seen of the children of a node. -/
def nodes : List (String × Node) → List (String × Node)
  | [] => []
  | (name, child) :: rest => (name, node child) :: nodes rest

end

/-- What is seen of the trees that an expression can see. -/
def scopes (s : Scopes) : Scopes := s.mapValues b.node

/-! ## Trees -/

theorem nodes_eq (children : Entries String Node) : b.nodes children = children.mapValues b.node := by
  induction children with
  | nil => rfl
  | cons entry rest ih =>
    obtain ⟨name, child⟩ := entry
    rw [nodes, ih]
    rfl

theorem color_node (n : Node) : (b.node n).color = n.color.map b.see := by
  cases n
  rw [node]
  rfl

theorem children_node (n : Node) : (b.node n).children = n.children.mapValues b.node := by
  cases n
  rw [node, nodes_eq]
  rfl

theorem child?_node (n : Node) (name : String) :
    (b.node n).child? name = (n.child? name).map b.node := by
  rw [Node.child?, children_node, Entries.get?_mapValues]
  rfl

theorem node_blank : b.node .blank = .blank := by
  rw [Node.blank, node]
  rfl

/-- **An update is seen as an update.** -/
theorem node_setColor (path : List String) (c : Option Color) (n : Node) :
    b.node (n.setColor path c) = (b.node n).setColor path (c.map b.see) := by
  induction path generalizing n with
  | nil =>
    cases n
    rw [node]
    rfl
  | cons name path ih =>
    obtain ⟨color, children⟩ := n
    have hchildren := Entries.mapValues_alter b.node
      (fun old => (old.getD .blank).setColor path c)
      (fun old => (old.getD .blank).setColor path (c.map b.see)) ?_ name children
    · rw [← nodes_eq, ← nodes_eq] at hchildren
      rw [node]
      exact (congrArg (Node.mk _) hchildren)
    · intro old
      rw [ih]
      cases old with
      | none => exact congrArg _ b.node_blank
      | some child => rfl

/-! ## Values -/

/-- The values look alike: they are the same, or colors or trees that look alike. -/
inductive Alike : Value → Value → Prop
  | same (v : Value) : Alike v v
  | color {text other : String} {c d : Color} (h : Color.ofHex? text = some c)
      (h' : Color.ofHex? other = some d) (see : b.see d = b.see c) : Alike (.text text) (.text other)
  | tree {n m : Node} (see : b.node m = b.node n) : Alike (.tree n) (.tree m)

/-- Both results are values in the relation, or both are the same failure. -/
inductive Parallel {α : Type} (R : α → α → Prop) : Except EvalError α → Except EvalError α → Prop
  | ok {x y : α} (h : R x y) : Parallel R (.ok x) (.ok y)
  | error (failure : EvalError) : Parallel R (.error failure) (.error failure)

/-- Results in a relation are used alike by what keeps this relation. -/
theorem Parallel.bind {α β : Type} {R : α → α → Prop} {S : β → β → Prop}
    {x y : Except EvalError α} {f g : α → Except EvalError β} (h : Parallel R x y)
    (hf : ∀ {a a'}, R a a' → Parallel S (f a) (g a')) : Parallel S (x.bind f) (y.bind g) := by
  cases h with
  | error failure => exact .error failure
  | ok h => exact hf h

/-- Of two things with the same picture, both or neither exist. -/
theorem neither_or_both {α β : Type} {f : α → β} {x y : Option α} (h : y.map f = x.map f) :
    (x = none ∧ y = none) ∨ ∃ a a', x = some a ∧ y = some a' ∧ f a' = f a := by
  cases x with
  | none => exact .inl ⟨rfl, Option.map_eq_none_iff.1 h⟩
  | some a =>
    obtain ⟨a', hy, hsame⟩ := Option.map_eq_some_iff.1 h
    exact .inr ⟨a, a', rfl, hy, hsame⟩

variable {b} {n m : Node} {v w : Value}

theorem color_of_node_eq (h : b.node m = b.node n) : m.color.map b.see = n.color.map b.see := by
  rw [← b.color_node, ← b.color_node, h]

theorem child?_of_node_eq (h : b.node m = b.node n) (name : String) :
    (m.child? name).map b.node = (n.child? name).map b.node := by
  rw [← b.child?_node, ← b.child?_node, h]

theorem isEmpty_of_node_eq (h : b.node m = b.node n) :
    m.children.isEmpty = n.children.isEmpty := by
  have hchildren := congrArg (fun n => n.children.isEmpty) h
  simpa only [b.children_node, Entries.mapValues, List.isEmpty_map] using hchildren

theorem Alike.hex {c d : Color} (h : b.see d = b.see c) : b.Alike (.text c.hex) (.text d.hex) :=
  .color c.ofHex?_hex d.ofHex?_hex h

theorem Alike.type (h : b.Alike v w) : w.type = v.type := by
  cases h <;> rfl

/-- Values that look alike stand for colors that do. -/
theorem Alike.toColor (h : b.Alike v w) :
    Parallel (fun c d => b.see d = b.see c) v.color w.color := by
  cases h with
  | same v =>
    cases hv : v.color with
    | ok c => exact .ok rfl
    | error failure => exact .error failure
  | @color text other c d hc hd hsee =>
    rw [Value.color_text_eq_ok_iff.2 hc, Value.color_text_eq_ok_iff.2 hd]
    exact .ok hsee
  | @tree n m hsee =>
    rw [Value.color, Value.color]
    rcases neither_or_both (color_of_node_eq hsee) with ⟨hn, hm⟩ | ⟨c, d, hn, hm, hsee⟩
    · rw [hn, hm]
      exact .error _
    · rw [hn, hm]
      exact .ok hsee

/-- Nodes that look alike stand for values that do. -/
theorem value_alike (h : b.node m = b.node n) : b.Alike n.value m.value := by
  have hempty := isEmpty_of_node_eq h
  unfold Node.value
  rcases neither_or_both (color_of_node_eq h) with ⟨hn, hm⟩ | ⟨c, d, hn, hm, hsee⟩
  · rw [hn, hm]
    exact .tree h
  · rw [hn, hm]
    cases hchildren : n.children with
    | nil =>
      rw [hchildren, List.isEmpty_nil, List.isEmpty_iff] at hempty
      rw [hempty]
      exact .hex hsee
    | cons child rest =>
      rw [hchildren, List.isEmpty_cons, List.isEmpty_eq_false_iff] at hempty
      obtain ⟨child', rest', hchildren'⟩ := List.exists_cons_of_ne_nil hempty
      rw [hchildren']
      exact .tree h

/-- **Paths into trees that look alike lead to values that do.** -/
theorem valueFrom_alike (h : b.node m = b.node n) (walked path : List String) :
    Parallel b.Alike (n.valueFrom walked path) (m.valueFrom walked path) := by
  induction path generalizing n m walked with
  | nil => exact .ok (value_alike h)
  | cons name path ih =>
    rw [Node.valueFrom, Node.valueFrom]
    rcases neither_or_both (child?_of_node_eq h name) with ⟨hn, hm⟩ | ⟨child, child', hn, hm, hsee⟩
    · have hempty := isEmpty_of_node_eq h
      rw [hn, hm, hempty]
      rcases neither_or_both (color_of_node_eq h) with ⟨hn, hm⟩ | ⟨c, d, hn, hm, hsee⟩
      · rw [hn, hm]
        exact .error _
      · rw [hn, hm]
        dsimp only
        split
        · exact .ok (.hex hsee)
        · split
          · exact .error _
          · exact .error _
    · rw [hn, hm]
      exact ih hsee (walked ++ [name])

variable {s t : Scopes}

theorem follow_alike (h : b.scopes t = b.scopes s) (root : String) (rest : List String) :
    Parallel b.Alike (s.follow root rest) (t.follow root rest) := by
  have hroot := congrArg (Entries.get? root) h
  rw [scopes, scopes, Entries.get?_mapValues, Entries.get?_mapValues] at hroot
  rw [Scopes.follow, Scopes.follow]
  rcases neither_or_both hroot with ⟨hs, ht⟩ | ⟨tree, tree', hs, ht, hsee⟩
  · rw [hs, ht]
    exact .error _
  · rw [hs, ht]
    exact valueFrom_alike hsee [root] rest

/-- A function looks at the color of its first argument and at the number of its second. -/
theorem apply_pair_alike (function : Builtin) {percent percent' : Value} (hsubject : b.Alike v w)
    (hpercent : b.Alike percent percent') :
    Parallel b.Alike (function.apply [v, percent]) (function.apply [w, percent']) := by
  have hcolor := hsubject.toColor
  rw [Builtin.apply, Builtin.apply]
  generalize v.color = answer at hcolor ⊢
  generalize w.color = answer' at hcolor ⊢
  cases hcolor with
  | error failure => cases failure <;> exact .error _
  | @ok c d hsee =>
    dsimp only
    cases hpercent with
    | color _ _ _ | tree _ => exact .error _
    | same =>
      cases percent with
      | number x => cases function <;> exact .ok (.hex (b.shift hsee _))
      | text _ | truth _ | tree _ => exact .error _

theorem apply_alike (function : Builtin) {vs ws : List Value} (h : List.Forall₂ b.Alike vs ws) :
    Parallel b.Alike (function.apply vs) (function.apply ws) := by
  cases h with
  | nil => exact .error _
  | cons hsubject hrest =>
    cases hrest with
    | nil => exact .error _
    | cons hpercent hrest =>
      cases hrest with
      | nil => exact apply_pair_alike function hsubject hpercent
      | cons _ hrest =>
        simp only [Builtin.apply, List.length_cons, hrest.length_eq]
        exact .error _

/-! ## Expressions -/

theorem evaluate_call (s : Scopes) (name : Ident) (args : List Expr) (span : Span)
    {function : Builtin} (h : Builtin.ofName? name.name = some function) :
    evaluate s (.call name args span) = (evaluateAll s args).bind function.apply := by
  rw [evaluate, h]
  dsimp only
  cases evaluateAll s args <;> rfl

theorem evaluateAll_cons (s : Scopes) (arg : Expr) (args : List Expr) :
    evaluateAll s (arg :: args) =
      (evaluate s arg).bind fun value => (evaluateAll s args).bind fun values =>
        .ok (value :: values) := by
  rw [evaluateAll]
  cases evaluate s arg with
  | error failure => rfl
  | ok value => cases evaluateAll s args <;> rfl

/-- The colors that literals are given look like all colors that they may have had. -/
def Hides (b : Blur) (r : Retouch) : Prop :=
  ∀ s c d, r.paint s = some d → b.see d = b.see c

theorem value_retouch_alike {r : Retouch} (hr : b.Hides r) (s : Span) (text : String) :
    b.Alike (.text text) (.text (r.value s text)) := by
  unfold Retouch.value
  cases hpaint : r.paint? s text with
  | none => exact .same _
  | some d =>
    obtain ⟨c, hc, hd⟩ := Option.bind_eq_some_iff.1 hpaint
    exact .color hc d.ofHex?_hex (hr s c d hd)

mutual

/-- **What an expression stands for looks alike** where its literals do. -/
theorem evaluate_alike {r : Retouch} (hr : b.Hides r) (h : b.scopes t = b.scopes s) :
    ∀ e : Expr, Parallel b.Alike (evaluate s e) (evaluate t (r.expr e))
  | .quoted text span => by
    rw [Retouch.expr, evaluate, evaluate]
    exact .ok (value_retouch_alike hr span text)
  | .hex text span => by
    rw [Retouch.expr, evaluate, evaluate]
    exact .ok (value_retouch_alike hr span text)
  | .number value _ => by
    rw [Retouch.expr, evaluate, evaluate]
    exact .ok (.same _)
  | .truth value _ => by
    rw [Retouch.expr, evaluate, evaluate]
    exact .ok (.same _)
  | .path root rest _ => by
    rw [Retouch.expr, evaluate, evaluate, List.map_map]
    exact follow_alike h root.name _
  | .call name args _ => by
    rw [Retouch.expr]
    cases hfunction : Builtin.ofName? name.name with
    | none =>
      have hfunction' : Builtin.ofName? (r.ident name).name = none := hfunction
      rw [evaluate, evaluate, hfunction, hfunction']
      exact .error _
    | some function =>
      rw [evaluate_call s name args _ hfunction,
        evaluate_call t (r.ident name) (r.exprs args) _ hfunction]
      exact (evaluateAll_alike hr h args).bind (apply_alike function)

theorem evaluateAll_alike {r : Retouch} (hr : b.Hides r) (h : b.scopes t = b.scopes s) :
    ∀ args : List Expr,
      Parallel (List.Forall₂ b.Alike) (evaluateAll s args) (evaluateAll t (r.exprs args))
  | [] => by
    rw [Retouch.exprs, evaluateAll, evaluateAll]
    exact .ok .nil
  | arg :: args => by
    rw [Retouch.exprs, evaluateAll_cons, evaluateAll_cons]
    refine (evaluate_alike hr h arg).bind fun hvalue => ?_
    refine (evaluateAll_alike hr h args).bind fun hvalues => ?_
    exact .ok (.cons hvalue hvalues)

end

/-- Expressions resolve to colors that look alike, or fail for the same reason. -/
theorem resolve_alike {r : Retouch} (hr : b.Hides r) (h : b.scopes t = b.scopes s) (e : Expr) :
    Parallel (fun c d => b.see d = b.see c) (s.resolve e) (t.resolve (r.expr e)) := by
  rw [Scopes.resolve, Scopes.resolve]
  exact (evaluate_alike hr h e).bind fun hvalue => hvalue.toColor

end Blur

end ColorTheme

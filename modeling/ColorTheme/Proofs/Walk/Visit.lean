import ColorTheme.Analysis.Walk

/-!
# The visits of a walk

The walk through a block, as the flat list of the items that it comes to, each with the verdict
on it.  An item of a rejected block is not visited.

* `walkItems_eq_after` : the walk does nothing but take down the verdicts of its visits.
* `Decided.verdict_eq` : each of them is the verdict of the frame after the visits before it.
-/

set_option autoImplicit false

namespace ColorTheme

/-- An item that the walk through a block of the rule comes to, the path of the block around the
item, and the verdict on it. -/
structure Visit where
  rule : BlockRule
  enclosing : Path
  item : Item
  verdict : Verdict

/-- The full path of the item. -/
def Visit.path (v : Visit) : Path := v.enclosing ++ [v.item.name.name]

/-- The verdict on an item of the block `enclosing`. -/
def Frame.verdict (frame : Frame) (p : Progress) (enclosing : Path) : Item → Verdict
  | .assignment a => attributeVerdict frame p enclosing a
  | .block kind _ _ => groupVerdict frame.rule p.log enclosing kind

mutual

/-- The visits of the walk through an item of the block `enclosing`. -/
def visitsOfItem (frame : Frame) (enclosing : Path) (p : Progress) : Item → List Visit
  | .assignment a =>
    [⟨frame.rule, enclosing, .assignment a, attributeVerdict frame p enclosing a⟩]
  | .block kind body span =>
    let verdict := groupVerdict frame.rule p.log enclosing kind
    ⟨frame.rule, enclosing, .block kind body span, verdict⟩ ::
      match verdict with
      | .opened path _ => visitsOfItems frame path (p.record frame.rule verdict) body
      | _ => []

/-- The visits of the walk through items of the block `enclosing`. -/
def visitsOfItems (frame : Frame) (enclosing : Path) (p : Progress) : List Item → List Visit
  | [] => []
  | item :: items =>
    visitsOfItem frame enclosing p item ++
      visitsOfItems frame enclosing (walkItem frame enclosing p item) items

end

/-- The progress after visits. -/
def Progress.after (rule : BlockRule) (p : Progress) (visits : List Visit) : Progress :=
  visits.foldl (fun p v => p.record rule v.verdict) p

/-- Each visit has the verdict that the frame gives on its item after the visits before it. -/
def Decided (frame : Frame) : Progress → List Visit → Prop
  | _, [] => True
  | p, v :: visits =>
    v.verdict = frame.verdict p v.enclosing v.item ∧
      Decided frame (p.record frame.rule v.verdict) visits

section

variable {frame : Frame} {rule : BlockRule}

@[simp] theorem Progress.after_nil (p : Progress) : p.after rule [] = p := rfl

@[simp] theorem Progress.after_cons (p : Progress) (v : Visit) (visits : List Visit) :
    p.after rule (v :: visits) = (p.record rule v.verdict).after rule visits := rfl

theorem Progress.after_append (p : Progress) (a b : List Visit) :
    p.after rule (a ++ b) = (p.after rule a).after rule b := List.foldl_append

@[simp] theorem Progress.log_record (p : Progress) (v : Verdict) :
    (p.record rule v).log = p.log ++ [v] := rfl

/-- The log grows by the verdicts. -/
theorem Progress.log_after (p : Progress) (visits : List Visit) :
    (p.after rule visits).log = p.log ++ visits.map Visit.verdict := by
  induction visits generalizing p with
  | nil => simp
  | cons v visits ih => rw [Progress.after_cons, ih]; simp

theorem decided_append (p : Progress) (a b : List Visit) :
    Decided frame p (a ++ b) ↔ Decided frame p a ∧ Decided frame (p.after frame.rule a) b := by
  induction a generalizing p with
  | nil => simp [Decided]
  | cons v a ih => simp only [List.cons_append, Decided, ih, Progress.after_cons, and_assoc]

theorem Decided.verdict_eq {p : Progress} {before behind : List Visit} {v : Visit}
    (h : Decided frame p (before ++ v :: behind)) :
    v.verdict = frame.verdict (p.after frame.rule before) v.enclosing v.item :=
  ((decided_append p before (v :: behind)).1 h).2.1

end

/-! ## A walk is the record of its visits -/

mutual

theorem walkItem_eq_after (frame : Frame) : ∀ (enclosing : Path) (p : Progress) (item : Item),
    walkItem frame enclosing p item = p.after frame.rule (visitsOfItem frame enclosing p item)
  | _, _, .assignment _ => rfl
  | enclosing, p, .block kind body span => by
    rw [walkItem, visitsOfItem]
    cases h : groupVerdict frame.rule p.log enclosing kind with
    | opened path name =>
      exact walkItems_eq_after frame path (p.record frame.rule (.opened path name)) body
    | colored _ _ _ | flagged _ _ _ _ | noted _ _ _ | rejected _ _ | incomplete _ => rfl

theorem walkItems_eq_after (frame : Frame) : ∀ (enclosing : Path) (p : Progress)
    (items : List Item),
    walkItems frame enclosing p items = p.after frame.rule (visitsOfItems frame enclosing p items)
  | _, _, [] => rfl
  | enclosing, p, item :: items => by
    rw [walkItems, visitsOfItems, Progress.after_append, ← walkItem_eq_after frame enclosing p item]
    exact walkItems_eq_after frame enclosing (walkItem frame enclosing p item) items

end

mutual

theorem decided_visitsOfItem (frame : Frame) : ∀ (enclosing : Path) (p : Progress) (item : Item),
    Decided frame p (visitsOfItem frame enclosing p item)
  | _, _, .assignment _ => ⟨rfl, trivial⟩
  | enclosing, p, .block kind body span => by
    rw [visitsOfItem]
    cases h : groupVerdict frame.rule p.log enclosing kind with
    | opened path name =>
      exact ⟨h.symm, decided_visitsOfItems frame path (p.record frame.rule (.opened path name)) body⟩
    | colored _ _ _ | flagged _ _ _ _ | noted _ _ _ | rejected _ _ | incomplete _ =>
      exact ⟨h.symm, trivial⟩

theorem decided_visitsOfItems (frame : Frame) : ∀ (enclosing : Path) (p : Progress)
    (items : List Item), Decided frame p (visitsOfItems frame enclosing p items)
  | _, _, [] => trivial
  | enclosing, p, item :: items => by
    rw [visitsOfItems, decided_append, ← walkItem_eq_after]
    exact ⟨decided_visitsOfItem frame enclosing p item,
      decided_visitsOfItems frame enclosing (walkItem frame enclosing p item) items⟩

end

end ColorTheme

import ColorTheme.Proofs.Walk.Visit

/-!
# What a verdict can be

All that the walk can conclude about an item, each with the condition under which it does.

* `judged` : the verdict on an item is one of the cases of `Judged`.
* `Judged.symbol`, `Judged.taken` : a verdict defines and takes no path but that of its item, and
  takes it only if it was free.
* `Judged.rejected` : a rejection points to the name or to the value of its item.
-/

set_option autoImplicit false

namespace ColorTheme

/-- The verdict on an item of the block `enclosing`, by cases. -/
inductive Judged (frame : Frame) (p : Progress) (enclosing : Path) : Item → Verdict → Prop
  | nameNotAllowed {a : Attribute} (name : frame.rule.allows a.name.name = false) :
      Judged frame p enclosing (.assignment a) (.rejected none ⟨.nameNotAllowed frame.rule.name
        a.name.name (frame.rule.allowedNames.getD []), a.name.span⟩)
  | duplicate {a : Attribute} (name : frame.rule.allows a.name.name = true)
      (taken : p.log.takes (enclosing ++ [a.name.name]) = true) :
      Judged frame p enclosing (.assignment a)
        (.rejected none ⟨.duplicateDefinition (enclosing ++ [a.name.name]), a.name.span⟩)
  | flagged {a : Attribute} {flag : StyleFlag} {value : Bool}
      (name : frame.rule.allows a.name.name = true)
      (free : p.log.takes (enclosing ++ [a.name.name]) = false)
      (isFlag : frame.rule.flag? enclosing a.name.name = some flag)
      (truth : evaluate (frame.visible p.tree) a.value = .ok (.truth value)) :
      Judged frame p enclosing (.assignment a)
        (.flagged (enclosing ++ [a.name.name]) a.name.span flag value)
  | notTruth {a : Attribute} {flag : StyleFlag} {other : Value}
      (name : frame.rule.allows a.name.name = true)
      (free : p.log.takes (enclosing ++ [a.name.name]) = false)
      (isFlag : frame.rule.flag? enclosing a.name.name = some flag)
      (value : evaluate (frame.visible p.tree) a.value = .ok other) :
      Judged frame p enclosing (.assignment a) (.rejected (some (enclosing ++ [a.name.name]))
        ⟨.flagNotTruth a.name.name other.type, a.value.span⟩)
  | failedFlag {a : Attribute} {flag : StyleFlag} {failure : EvalError}
      (name : frame.rule.allows a.name.name = true)
      (free : p.log.takes (enclosing ++ [a.name.name]) = false)
      (isFlag : frame.rule.flag? enclosing a.name.name = some flag)
      (value : evaluate (frame.visible p.tree) a.value = .error failure) :
      Judged frame p enclosing (.assignment a) (.rejected (some (enclosing ++ [a.name.name]))
        ⟨frame.complaint p.log enclosing a failure, a.value.span⟩)
  | colored {a : Attribute} {color : Color} (name : frame.rule.allows a.name.name = true)
      (free : p.log.takes (enclosing ++ [a.name.name]) = false)
      (noFlag : frame.rule.flag? enclosing a.name.name = none)
      (resolved : (frame.visible p.tree).resolve a.value = .ok color) :
      Judged frame p enclosing (.assignment a) (.colored (enclosing ++ [a.name.name]) a.name.span
        ⟨a.value.span, color, a.value.isReference⟩)
  | failed {a : Attribute} {failure : EvalError} (name : frame.rule.allows a.name.name = true)
      (free : p.log.takes (enclosing ++ [a.name.name]) = false)
      (noFlag : frame.rule.flag? enclosing a.name.name = none)
      (value : (frame.visible p.tree).resolve a.value = .error failure) :
      Judged frame p enclosing (.assignment a) (.rejected (some (enclosing ++ [a.name.name]))
        ⟨frame.complaint p.log enclosing a failure, a.value.span⟩)
  | blockInside {kind : Ident} {body : Body} {span : Span} (nesting : frame.rule.nesting = false) :
      Judged frame p enclosing (.block kind body span)
        (.rejected none ⟨.blockInside frame.rule.name, kind.span⟩)
  | reservedName {kind : Ident} {body : Body} {span : Span} (nesting : frame.rule.nesting = true)
      (name : kind.name = colorKey) :
      Judged frame p enclosing (.block kind body span) (.rejected none ⟨.reservedName, kind.span⟩)
  | duplicateBlock {kind : Ident} {body : Body} {span : Span} (nesting : frame.rule.nesting = true)
      (name : kind.name ≠ colorKey) (taken : p.log.takes (enclosing ++ [kind.name]) = true) :
      Judged frame p enclosing (.block kind body span)
        (.rejected none ⟨.duplicateDefinition (enclosing ++ [kind.name]), kind.span⟩)
  | opened {kind : Ident} {body : Body} {span : Span} (nesting : frame.rule.nesting = true)
      (name : kind.name ≠ colorKey) (free : p.log.takes (enclosing ++ [kind.name]) = false) :
      Judged frame p enclosing (.block kind body span)
        (.opened (enclosing ++ [kind.name]) kind.span)

variable {frame : Frame} {p : Progress} {enclosing : Path} {item : Item} {v : Verdict}

theorem judged_attribute (frame : Frame) (p : Progress) (enclosing : Path) (a : Attribute) :
    Judged frame p enclosing (.assignment a) (attributeVerdict frame p enclosing a) := by
  unfold attributeVerdict
  dsimp only
  split
  · rename_i hname; exact .nameNotAllowed hname
  · rename_i hname
    have hname := eq_true_of_ne_false hname
    split
    · rename_i htaken; exact .duplicate hname htaken
    · rename_i hfree
      have hfree := eq_false_of_ne_true hfree
      split
      · rename_i flag hflag
        split
        · rename_i value hvalue; exact .flagged hname hfree hflag hvalue
        · rename_i other _ hvalue; exact .notTruth hname hfree hflag hvalue
        · rename_i failure hvalue; exact .failedFlag hname hfree hflag hvalue
      · rename_i hflag
        split
        · rename_i color hvalue; exact .colored hname hfree hflag hvalue
        · rename_i failure hvalue; exact .failed hname hfree hflag hvalue

theorem judged_block (frame : Frame) (p : Progress) (enclosing : Path) (kind : Ident)
    (body : Body) (span : Span) :
    Judged frame p enclosing (.block kind body span)
      (groupVerdict frame.rule p.log enclosing kind) := by
  unfold groupVerdict
  dsimp only
  split
  · rename_i hnesting; exact .blockInside hnesting
  · rename_i hnesting
    have hnesting := eq_true_of_ne_false hnesting
    split
    · rename_i hname; exact .reservedName hnesting hname
    · rename_i hname
      split
      · rename_i htaken; exact .duplicateBlock hnesting hname htaken
      · rename_i hfree; exact .opened hnesting hname (eq_false_of_ne_true hfree)

/-- **Every verdict of the walk is one of the cases.** -/
theorem judged (frame : Frame) (p : Progress) (enclosing : Path) (item : Item) :
    Judged frame p enclosing item (frame.verdict p enclosing item) := by
  cases item with
  | assignment a => exact judged_attribute frame p enclosing a
  | block kind body span => exact judged_block frame p enclosing kind body span

/-! ## What follows in all cases -/

theorem Judged.symbol {path : Path} {name : Span} (h : Judged frame p enclosing item v)
    (hv : v.symbol? = some (path, name)) :
    path = enclosing ++ [item.name.name] ∧ name = item.name.span := by
  cases h <;> cases hv <;> exact ⟨rfl, rfl⟩

/-- A block that defines its path is opened. -/
theorem Judged.opened_of_symbol? {kind : Ident} {body : Body} {span : Span} {path : Path}
    {name : Span} (h : Judged frame p enclosing (.block kind body span) v)
    (hv : v.symbol? = some (path, name)) : v = .opened path name := by
  cases h <;> cases hv
  rfl

theorem Judged.taken {path : Path} (h : Judged frame p enclosing item v)
    (hv : v.taken? = some path) :
    path = enclosing ++ [item.name.name] ∧ p.log.takes path = false := by
  cases h <;> cases hv <;> exact ⟨rfl, by assumption⟩

/-- Only a block that may stand in its block is opened. -/
theorem Judged.of_opened {path : Path} {name : Span}
    (h : Judged frame p enclosing item (.opened path name)) :
    path = enclosing ++ [item.name.name] ∧ frame.rule.nesting = true ∧
      item.name.name ≠ colorKey := by
  cases h with
  | opened nesting hname free => exact ⟨rfl, nesting, hname⟩

/-- Only an attribute that is no flag, and whose value resolves to a color, is colored. -/
theorem Judged.of_colored {path : Path} {name : Span} {location : ColorLocation}
    (h : Judged frame p enclosing item (.colored path name location)) :
    ∃ a, item = .assignment a ∧ path = enclosing ++ [a.name.name] ∧ name = a.name.span ∧
      location = ⟨a.value.span, location.color, a.value.isReference⟩ ∧
      frame.rule.allows a.name.name = true ∧ frame.rule.flag? enclosing a.name.name = none ∧
      (frame.visible p.tree).resolve a.value = .ok location.color := by
  cases h with
  | colored hname free noFlag resolved => exact ⟨_, rfl, rfl, rfl, rfl, hname, noFlag, resolved⟩

/-- Only an attribute that is a flag, and whose value is a truth value, is flagged. -/
theorem Judged.of_flagged {path : Path} {name : Span} {flag : StyleFlag} {value : Bool}
    (h : Judged frame p enclosing item (.flagged path name flag value)) :
    ∃ a, item = .assignment a ∧ path = enclosing ++ [a.name.name] ∧ name = a.name.span ∧
      frame.rule.flag? enclosing a.name.name = some flag ∧
      evaluate (frame.visible p.tree) a.value = .ok (.truth value) := by
  cases h with
  | flagged hname free isFlag truth => exact ⟨_, rfl, rfl, rfl, isFlag, truth⟩

theorem severity_complaint (frame : Frame) (log : Log) (enclosing : Path) (a : Attribute)
    (failure : EvalError) : (frame.complaint log enclosing a failure).severity = .error := by
  unfold Frame.complaint
  split
  · dsimp only
    split <;> rfl
  · rfl

/-- A rejection is an error at the name or at the value of its item. -/
theorem Judged.rejected {taken : Option Path} {d : Diagnostic}
    (h : Judged frame p enclosing item (.rejected taken d)) :
    d.isError = true ∧
      (d.span = item.name.span ∨ ∃ a, item = .assignment a ∧ d.span = a.value.span) := by
  cases h with
  | nameNotAllowed | duplicate | blockInside | reservedName | duplicateBlock =>
    exact ⟨rfl, .inl rfl⟩
  | notTruth => exact ⟨rfl, .inr ⟨_, rfl, rfl⟩⟩
  | failedFlag | failed =>
    refine ⟨?_, .inr ⟨_, rfl, rfl⟩⟩
    rw [Diagnostic.isError, severity_complaint]
    rfl

/-- A rejection that is not because of the value takes no path. -/
theorem Judged.named_or_valued {taken : Option Path} {d : Diagnostic}
    (h : Judged frame p enclosing item (.rejected taken d)) :
    taken = none ∨ ∃ a, item = .assignment a ∧ d.span = a.value.span := by
  cases h with
  | nameNotAllowed | duplicate | blockInside | reservedName | duplicateBlock => exact .inl rfl
  | notTruth | failedFlag | failed => exact .inr ⟨_, rfl, rfl⟩

end ColorTheme

import ColorTheme.Proofs.Account.First
import ColorTheme.Proofs.Account.Styles

/-!
# Style flags

In the groups of a styled block, an attribute with the name of a flag is no color: it sets the flag
if its value is a truth value.

* `evaluate_eq_truth_iff` : only the words `true` and `false` have truth values.
* `Analysis.flag_log_iff` : the log has a flag set on a group if and only if an attribute visited in
  the group sets it.
* `Analysis.setsTo_iff` : that is the word `true`, as the value of the first item of the name.
-/

set_option autoImplicit false

namespace ColorTheme

/-! ## Truth values -/

theorem Node.valueFrom_ne_truth (walked path : List String) (n : Node) (b : Bool) :
    n.valueFrom walked path ≠ .ok (.truth b) := by
  induction path generalizing walked n with
  | nil =>
    rw [valueFrom, value]
    split <;> simp
  | cons name path ih =>
    rw [valueFrom]
    split
    · exact ih _ _
    · split
      · split
        · simp
        · split <;> simp
      · simp

theorem Builtin.apply_ne_truth (function : Builtin) (args : List Value) (b : Bool) :
    function.apply args ≠ .ok (.truth b) := by
  unfold Builtin.apply
  split
  · split
    · simp
    · simp
    · split
      · split <;> simp
      · simp
  · simp

/-- **Only the words `true` and `false` have truth values.** -/
theorem evaluate_eq_truth_iff {scopes : Scopes} {e : Expr} {b : Bool} :
    evaluate scopes e = .ok (.truth b) ↔ ∃ span, e = .truth b span := by
  constructor
  · intro h
    cases e with
    | truth value span =>
      rw [evaluate] at h
      cases h
      exact ⟨span, rfl⟩
    | quoted text span | hex text span | number value span =>
      rw [evaluate] at h
      cases h
    | path root rest span =>
      rw [evaluate, Scopes.follow] at h
      split at h
      · exact absurd h (Node.valueFrom_ne_truth _ _ _ _)
      · cases h
    | call name args span =>
      rw [evaluate] at h
      split at h
      · cases h
      · split at h
        · cases h
        · exact absurd h (Builtin.apply_ne_truth _ _ _)
  · rintro ⟨span, rfl⟩
    rw [evaluate]

/-! ## Attributes that set flags -/

theorem StyleFlag.ofName?_eq_some_iff {name : String} {flag : StyleFlag} :
    ofName? name = some flag ↔ flag.name = name := by
  constructor
  · exact name_of_ofName?
  · rintro rfl
    cases flag <;> decide

/-- Inside of the blocks in a styled block, the attributes with the names of flags are flags. -/
theorem BlockRule.flag?_eq_some_iff {rule : BlockRule} {enclosing : Path} {name : String}
    {flag : StyleFlag} (hstyled : rule.styled = true) (hlength : 1 < enclosing.length) :
    rule.flag? enclosing name = some flag ↔ flag.name = name := by
  rw [flag?, if_pos ⟨hstyled, hlength⟩, StyleFlag.ofName?_eq_some_iff]

/-- A flag whose name is allowed and free is set to the value that it has. -/
theorem attributeVerdict_of_flag {frame : Frame} {p : Progress} {enclosing : Path} {a : Attribute}
    {flag : StyleFlag} {value : Bool}
    (hfree : p.log.takes (enclosing ++ [a.name.name]) = false)
    (hallows : frame.rule.allows a.name.name = true)
    (hflag : frame.rule.flag? enclosing a.name.name = some flag)
    (htruth : evaluate (frame.visible p.tree) a.value = .ok (.truth value)) :
    attributeVerdict frame p enclosing a =
      .flagged (enclosing ++ [a.name.name]) a.name.span flag value := by
  unfold attributeVerdict
  dsimp only
  rw [hallows, if_neg (by decide), hfree, if_neg (by decide), hflag]
  dsimp only
  rw [htruth]

/-- The rule of a block that may hold all kinds of items: styled groups, with flags in them. -/
structure BlockRule.Styles (rule : BlockRule) : Prop where
  styled : rule.styled = true
  nesting : rule.nesting = true
  allows : ∀ name, rule.allows name = true

/-- The visit is to the attribute, and its value sets the flag. -/
def Visit.SetsTo (v : Visit) (a : Attribute) (flag : StyleFlag) (value : Bool) : Prop :=
  v.item = .assignment a ∧ v.verdict = .flagged v.path a.name.span flag value

theorem StyleFlag.name_ne_colorKey (flag : StyleFlag) : flag.name ≠ colorKey := by
  cases flag <;> decide

namespace Chapter

variable {c : Chapter} {v : Visit} {path : Path} {flag : StyleFlag} {value : Bool} {a : Attribute}

theorem setsTo_of_flagged (hv : v ∈ c.visits) {name : Span}
    (h : v.verdict = .flagged path name flag value) :
    path = v.path ∧ ∃ a, v.SetsTo a flag value := by
  obtain ⟨p, hp⟩ := c.tour.exists_judged hv
  rw [h] at hp
  obtain ⟨a, hitem, hpath, hname, -⟩ := hp.of_flagged
  have hvpath : path = v.path := by
    rw [hpath, Visit.path, hitem]
    rfl
  exact ⟨hvpath, a, hitem, by rw [h, hvpath, hname]⟩

/-- What sets a flag is an attribute with the name of the flag, and its value is a word. -/
theorem attribute_of_setsTo (hv : v ∈ c.visits) (h : v.SetsTo a flag value) :
    a.name.name = flag.name ∧ 1 < v.enclosing.length ∧ ∃ span, a.value = .truth value span := by
  obtain ⟨p, hp⟩ := c.tour.exists_judged hv
  rw [h.2] at hp
  obtain ⟨b, hitem, -, -, hflag, htruth⟩ := hp.of_flagged
  obtain rfl := Item.assignment.inj (h.1.symm.trans hitem)
  obtain ⟨hname, -, hlength⟩ := BlockRule.name_of_flag? hflag
  exact ⟨hname.symm, hlength, evaluate_eq_truth_iff.1 htruth⟩

/-- What resolves to a color is no flag. -/
theorem flag?_of_resolvesTo {color : Color} (hv : v ∈ c.visits) (h : v.ResolvesTo a color) :
    c.rule.flag? v.enclosing v.item.name.name = none := by
  obtain ⟨p, hp⟩ := c.tour.exists_judged hv
  rw [h.2] at hp
  obtain ⟨b, hitem, -, -, -, -, hnone, -⟩ := hp.of_colored
  rw [hitem]
  exact hnone

/-- A node that has the path of a flag is not that of the flag: a block stands around what is
colored there. -/
theorem prefix_enclosing_of_flag {w : Visit} {color : Color}
    (hflag : c.rule.flag? v.enclosing v.item.name.name = some flag) (hw : w ∈ c.visits)
    (h : w.ResolvesTo a color) (hbelow : v.path <+: w.nodePath) : v.path <+: w.enclosing := by
  rcases w.path_eq_or with hown | hcolor
  · rw [← hown, Visit.path, Visit.path, List.prefix_concat_iff] at hbelow
    refine hbelow.resolve_left fun heq => ?_
    obtain ⟨hsame, hlast⟩ := List.append_inj' heq rfl
    have hnone := flag?_of_resolvesTo hw h
    rw [← hsame, ← (List.cons.inj hlast).1, hflag] at hnone
    cases hnone
  · rw [Visit.path] at hcolor
    rwa [(List.append_inj' hcolor rfl).1]

end Chapter

namespace Analysis

variable {table : BlockTable} {body : Body} {c : Chapter} {b v : Visit} {path : Path}
  {flag : StyleFlag} {a : Attribute} {items front behind : List Item}

/-- The log of a chapter has a flag set where a visit sets it. -/
theorem flag_log_iff (h : Regular table body) (hc : c ∈ chapters table body)
    (hhead : path.head? = some c.rule.name) :
    c.log.flag path flag = true ↔
      ∃ v ∈ c.visits, v.enclosing = path ∧ ∃ a, v.SetsTo a flag true := by
  rw [Chapter.log, Progress.log_after, Log.flag, List.any_append, Bool.or_eq_true_iff]
  constructor
  · rintro (hstart | hvisits)
    · obtain ⟨w, hw, hflag⟩ := List.any_eq_true.1 hstart
      cases w <;> simp [Verdict.flag?] at hflag
      rename_i taken name set value
      obtain ⟨rfl, rfl, rfl⟩ := hflag
      -- such a flag would be a path inside of the block, but these are free
      have hfree : c.start.log.takes taken = false := by
        cases taken using List.reverseRecOn with
        | nil => cases hhead
        | append_singleton group last =>
          rw [List.dropLast_concat] at hhead
          cases group with
          | nil => cases hhead
          | cons first group => exact free_at_start h hc hhead (by simp)
      have htaken := List.any_eq_false.1 hfree _ hw
      exact absurd (beq_self_eq_true (some taken)) htaken
    · obtain ⟨w, hw, hflag⟩ := List.any_eq_true.1 hvisits
      obtain ⟨v, hv, rfl⟩ := List.mem_map.1 hw
      cases hverdict : v.verdict <;> rw [hverdict] at hflag <;> simp [Verdict.flag?] at hflag
      obtain ⟨rfl, rfl, rfl⟩ := hflag
      obtain ⟨hpath, ha⟩ := Chapter.setsTo_of_flagged hv hverdict
      exact ⟨v, hv, by rw [hpath, Visit.path, List.dropLast_concat], ha⟩
  · rintro ⟨v, hv, rfl, a, ha⟩
    refine .inr (List.any_eq_true.2 ⟨v.verdict, List.mem_map_of_mem hv, ?_⟩)
    rw [ha.2, Verdict.flag?, Visit.path, List.dropLast_concat, beq_self_eq_true]

/-- **A flag is set by the word `true`**, as the value of the first item that has the name of the
flag. -/
theorem setsTo_iff (h : Regular table body) (hc : c ∈ chapters table body)
    (hrule : c.rule.Styles) (hb : b ∈ c.visits) (hopens : b.OpensAt path items) :
    (∃ v ∈ c.visits, v.enclosing = path ∧ v.SetsTo a flag true) ↔
      a.name.name = flag.name ∧ (∃ span, a.value = .truth true span) ∧
        ∃ front behind, items = front ++ .assignment a :: behind ∧
          ∀ i ∈ front, i.name.name ≠ flag.name := by
  constructor
  · rintro ⟨v, hv, rfl, ha⟩
    obtain ⟨hname, -, hvalue⟩ := Chapter.attribute_of_setsTo hv ha
    have hitem : v.item.name.name = flag.name := by rw [ha.1]; exact hname
    obtain ⟨front, behind, heq, hfront⟩ := first_of_taken h hc hb hv hopens (by rw [ha.2]; rfl)
      (hrule.allows _) hrule.nesting (by rw [hitem]; exact flag.name_ne_colorKey)
    rw [ha.1] at heq
    rw [hitem] at hfront
    exact ⟨hname, hvalue, front, behind, heq, hfront⟩
  · rintro ⟨hname, ⟨span, hvalue⟩, front, behind, rfl, hfront⟩
    rw [← hname] at hfront
    obtain ⟨v, hv, henclosing, hitem, p, hverdict, hfree⟩ := exists_free_visit h hc hb hopens hfront
    have hflag : c.frame.rule.flag? path a.name.name = some flag :=
      (BlockRule.flag?_eq_some_iff hrule.styled (Chapter.length_of_opensAt hb hopens)).2 hname.symm
    have htruth : evaluate (c.frame.visible p.tree) a.value = .ok (.truth true) :=
      evaluate_eq_truth_iff.2 ⟨span, hvalue⟩
    have hset := attributeVerdict_of_flag hfree (hrule.allows _) hflag htruth
    refine ⟨v, hv, henclosing, hitem, ?_⟩
    rw [hverdict, Visit.path, henclosing, hitem]
    exact hset

end Analysis

end ColorTheme

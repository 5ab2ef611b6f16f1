import ColorTheme.Proofs.Compare.Alike
import ColorTheme.Proofs.Node.Blur

/-!
# The analysis of a retouched document

A document and the same document retouched are analyzed alike: the verdicts are the same, on the
same items in the same order, except that places have moved, and that colors which resolve may be
others that look alike.

* `Frame.Tracks.walkItems` : what one item does to a walk, and what all items do.
* `Stage.Tracks.walkBlocks` : the same from block to block.
* `Analysis.tracks_ofBody` : so the logs track each other, and the diagnostics are the same but for
  their places.
-/

set_option autoImplicit false

namespace ColorTheme

/-! ## What becomes of verdicts -/

namespace Retouch

variable (r : Retouch)

/-- A diagnostic. -/
def diagnostic (d : Diagnostic) : Diagnostic := ⟨d.problem, r.span d.span⟩

/-- The place of a color. -/
def location (l : ColorLocation) : ColorLocation := ⟨r.span l.span, l.color, l.isReference⟩

/-- A verdict. -/
def verdict : Verdict → Verdict
  | .colored path name l => .colored path (r.span name) (r.location l)
  | .flagged path name flag value => .flagged path (r.span name) flag value
  | .opened path name => .opened path (r.span name)
  | .noted key name text => .noted key (r.span name) text
  | .rejected taken d => .rejected taken (r.diagnostic d)
  | .incomplete d => .incomplete (r.diagnostic d)

/-- A path and the place of its name. -/
def symbol (entry : Path × Span) : Path × Span := (entry.1, r.span entry.2)

variable (v : Verdict)

theorem taken?_verdict : (r.verdict v).taken? = v.taken? := by cases v <;> rfl

theorem symbol?_verdict : (r.verdict v).symbol? = v.symbol?.map r.symbol := by cases v <;> rfl

theorem flag?_verdict : (r.verdict v).flag? = v.flag? := by cases v <;> rfl

theorem note?_verdict : (r.verdict v).note? = v.note? := by cases v <;> rfl

theorem diagnostic?_verdict : (r.verdict v).diagnostic? = v.diagnostic?.map r.diagnostic := by
  cases v <;> rfl

end Retouch

namespace Blur

variable (b : Blur)

/-- What is seen of a verdict. -/
def verdict : Verdict → Verdict
  | .colored path name l => .colored path name ⟨l.span, b.see l.color, l.isReference⟩
  | v => v

variable (v : Verdict)

theorem taken?_verdict : (b.verdict v).taken? = v.taken? := by cases v <;> rfl

theorem symbol?_verdict : (b.verdict v).symbol? = v.symbol? := by cases v <;> rfl

theorem flag?_verdict : (b.verdict v).flag? = v.flag? := by cases v <;> rfl

theorem note?_verdict : (b.verdict v).note? = v.note? := by cases v <;> rfl

theorem diagnostic?_verdict : (b.verdict v).diagnostic? = v.diagnostic? := by cases v <;> rfl

end Blur

/-- The verdicts of the second log are those of the first, retouched, up to colors that look
alike. -/
def Log.Tracks (b : Blur) (r : Retouch) (log other : Log) : Prop :=
  other.map b.verdict = (log.map r.verdict).map b.verdict

section

variable {b : Blur} {r : Retouch} {log other : Log}

namespace Log.Tracks

theorem nil : Log.Tracks b r [] [] := rfl

theorem append {more more' : Log} (h : log.Tracks b r other) (h' : more.Tracks b r more') :
    Log.Tracks b r (log ++ more) (other ++ more') := by
  unfold Log.Tracks at h h' ⊢
  rw [List.map_append, List.map_append, List.map_append, h, h']

theorem singleton {v w : Verdict} (h : b.verdict w = b.verdict (r.verdict v)) :
    Log.Tracks b r [v] [w] := by
  unfold Log.Tracks
  rw [List.map_singleton, List.map_singleton, List.map_singleton, h]

theorem of_eq (h : other = log.map r.verdict) : log.Tracks b r other := by
  rw [h]
  rfl

/-- What is read off the second log is what is read off the first, changed in the same way. -/
theorem filterMap_eq {α : Type} {read : Verdict → Option α} {change : α → α}
    (h : log.Tracks b r other) (hseen : ∀ v, read (b.verdict v) = read v)
    (hchange : ∀ v, read (r.verdict v) = (read v).map change) :
    other.filterMap read = (log.filterMap read).map change := by
  have hread := congrArg (List.filterMap read) h
  rw [List.map_map, List.filterMap_map, List.filterMap_map] at hread
  have hleft : read ∘ b.verdict = read := funext hseen
  have hright : read ∘ (b.verdict ∘ r.verdict) = fun v => (read v).map change :=
    funext fun v => (hseen _).trans (hchange v)
  rw [hleft, hright] at hread
  rw [hread, List.map_filterMap]

theorem any_eq {asks : Verdict → Bool} (h : log.Tracks b r other)
    (hseen : ∀ v, asks (b.verdict v) = asks v) (hsame : ∀ v, asks (r.verdict v) = asks v) :
    other.any asks = log.any asks := by
  have hasks := congrArg (fun log => List.any log asks) h
  rw [List.map_map] at hasks
  simp only [List.any_map] at hasks
  have hleft : asks ∘ b.verdict = asks := funext hseen
  have hright : asks ∘ (b.verdict ∘ r.verdict) = asks :=
    funext fun v => (hseen _).trans (hsame v)
  rwa [hleft, hright] at hasks

/-- What is read off both logs is the same, if the retouch does not change it. -/
theorem filterMap_same {α : Type} {read : Verdict → Option α} (h : log.Tracks b r other)
    (hseen : ∀ v, read (b.verdict v) = read v) (hsame : ∀ v, read (r.verdict v) = read v) :
    other.filterMap read = log.filterMap read := by
  have hread : other.filterMap read = (log.filterMap read).map id :=
    h.filterMap_eq hseen fun v => by rw [hsame, Option.map_id_apply]
  rwa [List.map_id] at hread

/-- The verdicts belong together one by one. -/
theorem forall₂ (h : log.Tracks b r other) :
    List.Forall₂ (fun v w => b.verdict w = b.verdict (r.verdict v)) log other := by
  have hsame : List.Forall₂ (· = ·) (other.map b.verdict) ((log.map r.verdict).map b.verdict) := by
    have heq : other.map b.verdict = (log.map r.verdict).map b.verdict := h
    rw [heq, List.forall₂_same]
    exact fun _ _ => rfl
  rw [List.map_map, List.forall₂_map_left_iff, List.forall₂_map_right_iff] at hsame
  exact hsame.flip

/-- The logs give the same answers. -/
theorem alike (h : log.Tracks b r other) : log.Alike other where
  takes path := h.any_eq (fun v => by rw [b.taken?_verdict]) fun v => by rw [r.taken?_verdict]
  defines path := by
    refine h.any_eq (fun v => by rw [b.symbol?_verdict]) fun v => ?_
    rw [r.symbol?_verdict, Option.map_map]
    rfl
  flag group flag := h.any_eq (fun v => by rw [b.flag?_verdict]) fun v => by rw [r.flag?_verdict]

end Log.Tracks

/-! ## Inside a block -/

/-- The walks have come to the same point of the document and of the retouched one. -/
structure Progress.Tracks (b : Blur) (r : Retouch) (p q : Progress) : Prop where
  log : p.log.Tracks b r q.log
  tree : b.node q.tree = b.node p.tree

/-- The frames belong to the same block in the document and the retouched one. -/
structure Frame.Tracks (b : Blur) (frame other : Frame) : Prop where
  rule : other.rule = frame.rule
  declared : other.declared = frame.declared
  earlier : b.scopes other.earlier = b.scopes frame.earlier

mutual

theorem references_expr (r : Retouch) : ∀ e : Expr, (r.expr e).references = e.references
  | .path root rest _ => by
    rw [Retouch.expr, Expr.references, Expr.references, List.map_cons, List.map_map, List.map_cons]
    rfl
  | .call name args _ => by
    rw [Retouch.expr, Expr.references, Expr.references, referencesOfAll_exprs r args]
  | .quoted _ _ | .hex _ _ | .number _ _ | .truth _ _ => by
    rw [Retouch.expr, Expr.references, Expr.references]

theorem referencesOfAll_exprs (r : Retouch) :
    ∀ args : List Expr, Expr.referencesOfAll (r.exprs args) = Expr.referencesOfAll args
  | [] => by rw [Retouch.exprs]
  | arg :: args => by
    rw [Retouch.exprs, Expr.referencesOfAll, Expr.referencesOfAll, references_expr r arg,
      referencesOfAll_exprs r args]

end

theorem isReference_expr (r : Retouch) (e : Expr) : (r.expr e).isReference = e.isReference := by
  cases e <;> rw [Retouch.expr] <;> rfl

mutual

theorem declared_item (r : Retouch) (enclosing : Path) :
    ∀ item : Item, (r.item item).declared enclosing = item.declared enclosing
  | .assignment a => by
    rw [Retouch.item, Item.declared, Item.declared]
    rfl
  | .block kind body _ => by
    rw [Retouch.item, Item.declared, Item.declared, declaredByAll_items r _ body]
    rfl

theorem declaredByAll_items (r : Retouch) (enclosing : Path) :
    ∀ items : List Item, declaredByAll enclosing (r.items items) = declaredByAll enclosing items
  | [] => by rw [Retouch.items]
  | item :: items => by
    rw [Retouch.items, declaredByAll, declaredByAll, declared_item r enclosing item,
      declaredByAll_items r enclosing items]

end

namespace Progress.Tracks

variable {p q : Progress}

/-- One more verdict is taken down in both. -/
theorem record {v w : Verdict} (rule : BlockRule) (h : p.Tracks b r q)
    (hv : b.verdict w = b.verdict (r.verdict v)) :
    (p.record rule v).Tracks b r (q.record rule w) := by
  refine ⟨h.log.append (.singleton hv), ?_⟩
  cases v with
  | colored path name l =>
    cases w with
    | colored path' name' l' =>
      have hpath : path' = path := congrArg (fun v => (v.taken?).getD []) hv
      have hsee : b.see l'.color = b.see l.color :=
        congrArg (fun v => (v.location?.map ColorLocation.color).getD default) hv
      show b.node (q.tree.setColor (rule.target path') (some l'.color)) =
        b.node (p.tree.setColor (rule.target path) (some l.color))
      rw [b.node_setColor, b.node_setColor, h.tree, hpath, Option.map_some, hsee]
      rfl
    | flagged _ _ _ _ | opened _ _ | noted _ _ _ | rejected _ _ | incomplete _ => cases hv
  | flagged _ _ _ _ | opened _ _ | noted _ _ _ | rejected _ _ | incomplete _ =>
    cases w with
    | colored _ _ _ => cases hv
    | flagged _ _ _ _ | opened _ _ | noted _ _ _ | rejected _ _ | incomplete _ => exact h.tree

end Progress.Tracks

namespace Frame.Tracks

variable {frame frame' : Frame} {p q : Progress}

theorem visible (h : frame.Tracks b frame') (hp : p.Tracks b r q) :
    b.scopes (frame'.visible q.tree) = b.scopes (frame.visible p.tree) := by
  rw [Frame.visible, Frame.visible, h.rule]
  split
  · rw [Blur.scopes, Blur.scopes, Entries.mapValues_put, Entries.mapValues_put, hp.tree]
    exact congrArg _ h.earlier
  · exact h.earlier

theorem complaint (h : frame.Tracks b frame') (hp : p.Tracks b r q) (enclosing : Path)
    (a : Attribute) (failure : EvalError) :
    frame'.complaint q.log enclosing (r.assignment a) failure =
      frame.complaint p.log enclosing a failure := by
  have hcycle : frame'.cycle? q.log = frame.cycle? p.log := by
    funext enclosing reference
    rw [Frame.cycle?, Frame.cycle?, h.declared, hp.log.alike.defines]
  rw [Frame.complaint, Frame.complaint, h.rule, hcycle, Retouch.assignment, references_expr]
  rfl

/-- **An attribute is judged alike in both walks.** -/
theorem attributeVerdict (h : frame.Tracks b frame') (hr : b.Hides r) (hp : p.Tracks b r q)
    (enclosing : Path) (a : Attribute) :
    b.verdict (attributeVerdict frame' q enclosing (r.assignment a)) =
      b.verdict (r.verdict (attributeVerdict frame p enclosing a)) := by
  have hvisible := h.visible hp
  have hname : (r.assignment a).name.name = a.name.name := rfl
  have hspan : (r.assignment a).value.span = r.span a.value.span := r.span_expr a.value
  rw [ColorTheme.attributeVerdict, ColorTheme.attributeVerdict, h.rule, hname, hspan,
    hp.log.alike.takes]
  simp only [h.complaint hp]
  split
  · rfl
  · split
    · rfl
    · split
      · have hvalue := Blur.evaluate_alike hr hvisible a.value
        have hexpr : (r.assignment a).value = r.expr a.value := rfl
        rw [hexpr]
        generalize evaluate (frame.visible p.tree) a.value = answer at hvalue ⊢
        generalize evaluate (frame'.visible q.tree) (r.expr a.value) = answer' at hvalue ⊢
        cases hvalue with
        | error failure => rfl
        | ok hvalue =>
          cases hvalue with
          | color _ _ _ | tree _ => rfl
          | same =>
            rename_i v
            cases v <;> rfl
      · have hvalue := Blur.resolve_alike hr hvisible a.value
        have hexpr : (r.assignment a).value = r.expr a.value := rfl
        rw [hexpr, isReference_expr]
        generalize (frame.visible p.tree).resolve a.value = answer at hvalue ⊢
        generalize (frame'.visible q.tree).resolve (r.expr a.value) = answer' at hvalue ⊢
        cases hvalue with
        | error failure => rfl
        | ok hsee =>
          dsimp only [Retouch.verdict, Blur.verdict, Retouch.location]
          rw [hsee]
          rfl

/-- A block is judged alike in both walks. -/
theorem groupVerdict (h : frame.Tracks b frame') (hp : p.Tracks b r q) (enclosing : Path)
    (kind : Ident) :
    groupVerdict frame'.rule q.log enclosing (r.ident kind) =
      r.verdict (groupVerdict frame.rule p.log enclosing kind) := by
  have hname : (r.ident kind).name = kind.name := rfl
  rw [ColorTheme.groupVerdict, ColorTheme.groupVerdict, h.rule, hname, hp.log.alike.takes]
  split
  · rfl
  · split
    · rfl
    · split <;> rfl

mutual

/-- One item has the same effect in both walks. -/
theorem walkItem (h : frame.Tracks b frame') (hr : b.Hides r) : ∀ (enclosing : Path) {p q : Progress}
    (item : Item), p.Tracks b r q →
    (walkItem frame enclosing p item).Tracks b r (walkItem frame' enclosing q (r.item item))
  | enclosing, p, q, .assignment a, hp => by
    rw [Retouch.item, ColorTheme.walkItem, ColorTheme.walkItem, h.rule]
    exact hp.record frame.rule (h.attributeVerdict hr hp enclosing a)
  | enclosing, p, q, .block kind body span, hp => by
    have hverdict := h.groupVerdict hp enclosing kind
    have hnext := hp.record frame.rule (congrArg b.verdict hverdict)
    rw [Retouch.item, ColorTheme.walkItem, ColorTheme.walkItem, hverdict]
    rw [hverdict] at hnext
    generalize ColorTheme.groupVerdict frame.rule p.log enclosing kind = verdict at hnext ⊢
    rw [h.rule]
    cases verdict with
    | opened path name => exact h.walkItems hr path body hnext
    | colored _ _ _ | flagged _ _ _ _ | noted _ _ _ | rejected _ _ | incomplete _ => exact hnext

/-- **All items have the same effect in both walks.** -/
theorem walkItems (h : frame.Tracks b frame') (hr : b.Hides r) : ∀ (enclosing : Path)
    {p q : Progress} (items : List Item), p.Tracks b r q →
    (walkItems frame enclosing p items).Tracks b r (walkItems frame' enclosing q (r.items items))
  | _, _, _, [], hp => by
    rw [Retouch.items]
    exact hp
  | enclosing, p, q, item :: items, hp => by
    rw [Retouch.items, ColorTheme.walkItems, ColorTheme.walkItems]
    exact h.walkItems hr enclosing items (h.walkItem hr enclosing item hp)

end

end Frame.Tracks

/-! ## From block to block -/

theorem attributes_items (r : Retouch) (items : Body) :
    Body.attributes (r.items items) = items.attributes.map r.assignment := by
  rw [r.items_eq_map, Body.attributes, Body.attributes, List.filterMap_map, List.map_filterMap]
  refine List.filterMap_congr fun item _ => ?_
  cases item <;> rw [Function.comp_apply, Retouch.item] <;> rfl

theorem blocks_items (r : Retouch) (items : Body) :
    Body.blocks (r.items items) = items.blocks.map r.block := by
  rw [r.items_eq_map, Body.blocks, Body.blocks, List.filterMap_map, List.map_filterMap]
  refine List.filterMap_congr fun item _ => ?_
  cases item <;> rw [Function.comp_apply, Retouch.item] <;> rfl

theorem block?_items (r : Retouch) (items : Body) (name : String) :
    Body.block? (r.items items) name = (items.block? name).map r.block := by
  rw [Body.block?, Body.block?, blocks_items, List.find?_map]
  rfl

theorem completenessVerdicts_block (r : Retouch) (rule : BlockRule) (block : Block) :
    completenessVerdicts rule (r.block block) = (completenessVerdicts rule block).map r.verdict := by
  have hassigned : (r.block block).body.attributes.map (fun a => a.name.name) =
      block.body.attributes.map fun a => a.name.name := by
    show (Body.attributes (r.items block.body)).map _ = _
    rw [attributes_items, List.map_map]
    rfl
  rw [completenessVerdicts, completenessVerdicts, hassigned]
  split
  · rfl
  · dsimp only
    split <;> rfl

/-- The stages have been come to in the document and in the retouched one. -/
structure Stage.Tracks (b : Blur) (r : Retouch) (stage other : Stage) : Prop where
  log : stage.log.Tracks b r other.log
  scopes : b.scopes other.scopes = b.scopes stage.scopes

namespace Stage.Tracks

variable {stage stage' : Stage}

/-- The walks through a block come to the same point. -/
theorem done (h : stage.Tracks b r stage') (hr : b.Hides r) (rule : BlockRule) (block : Block) :
    Progress.Tracks b r
      (walkItems (Chapter.mk rule block stage).frame [rule.name] (Chapter.mk rule block stage).start
        block.body)
      (walkItems (Chapter.mk rule (r.block block) stage').frame [rule.name]
        (Chapter.mk rule (r.block block) stage').start (r.block block).body) := by
  have hframe : Frame.Tracks b (Chapter.mk rule block stage).frame
      (Chapter.mk rule (r.block block) stage').frame :=
    ⟨rfl, declaredByAll_items r [rule.name] block.body, h.scopes⟩
  have hstart : Progress.Tracks b r (Chapter.mk rule block stage).start
      (Chapter.mk rule (r.block block) stage').start :=
    ⟨h.log.append (.singleton rfl), rfl⟩
  exact hframe.walkItems hr [rule.name] block.body hstart

theorem enter (h : stage.Tracks b r stage') (hr : b.Hides r) (rule : BlockRule) (block : Block) :
    (stage.enter rule block).Tracks b r (stage'.enter rule (r.block block)) := by
  have hdone := h.done hr rule block
  constructor
  · exact hdone.log.append (.of_eq (completenessVerdicts_block r rule block))
  · have hscopes := h.scopes
    rw [Blur.scopes, Blur.scopes] at hscopes
    show b.scopes (Entries.put rule.name _ stage'.scopes) =
      b.scopes (Entries.put rule.name _ stage.scopes)
    rw [Blur.scopes, Blur.scopes, Entries.mapValues_put, Entries.mapValues_put, hscopes]
    exact congrArg (fun tree => Entries.put rule.name tree _) hdone.tree

/-- **All blocks have the same effect in both walks.** -/
theorem walkBlocks (h : stage.Tracks b r stage') (hr : b.Hides r) (body : Body)
    (table : BlockTable) :
    (walkBlocks body stage table).Tracks b r (walkBlocks (r.items body) stage' table) := by
  induction table generalizing stage stage' with
  | nil => exact h
  | cons rule rules ih =>
    rw [ColorTheme.walkBlocks, ColorTheme.walkBlocks, block?_items]
    cases body.block? rule.name with
    | none => exact ih h
    | some block => exact ih (h.enter hr rule block)

end Stage.Tracks

/-! ## Before the first block -/

theorem outsideVerdicts_items (r : Retouch) (body : Body) :
    outsideVerdicts (r.items body) = (outsideVerdicts body).map r.verdict := by
  rw [outsideVerdicts, outsideVerdicts, attributes_items, List.map_map, List.map_map]
  rfl

theorem blockVerdicts_map (r : Retouch) (table : BlockTable) (seen : List String)
    (blocks : List Block) :
    blockVerdicts table seen (blocks.map r.block) =
      (blockVerdicts table seen blocks).map r.verdict := by
  induction blocks generalizing seen with
  | nil => rfl
  | cons block blocks ih =>
    have hname : (r.block block).kind.name = block.kind.name := rfl
    rw [List.map_cons, blockVerdicts, blockVerdicts, hname]
    split
    · rw [List.map_cons, ih]
      rfl
    · split
      · rw [List.map_cons, ih]
        rfl
      · exact ih _

/-- No literal of the `meta` block is given another color. -/
def Retouch.SparesNotes (r : Retouch) (body : Body) : Prop :=
  ∀ block, body.block? metaName = some block →
    ∀ a ∈ block.body.attributes, r.paint a.value.span = none

theorem literalText?_expr {e : Expr} (h : r.paint e.span = none) :
    literalText? (r.expr e) = literalText? e := by
  cases e with
  | quoted text span | hex text span =>
    have hvalue := r.value_of_none h text
    rw [Retouch.expr]
    exact congrArg some hvalue
  | number _ _ | truth _ _ | path _ _ _ | call _ _ _ =>
    rw [Retouch.expr]
    rfl

theorem metaVerdict_assignment (h : log.Tracks b r other) {a : Attribute}
    (ha : r.paint a.value.span = none) :
    metaVerdict other (r.assignment a) = r.verdict (metaVerdict log a) := by
  have hname : (r.assignment a).name.name = a.name.name := rfl
  have hliteral : literalText? (r.assignment a).value = literalText? a.value :=
    literalText?_expr ha
  have hspan : (r.assignment a).value.span = r.span a.value.span := r.span_expr a.value
  rw [metaVerdict, metaVerdict, hname, h.alike.takes, hliteral, hspan]
  split
  · rfl
  · split <;> rfl

theorem Log.Tracks.foldl_metaVerdict (h : log.Tracks b r other) {attributes : List Attribute}
    (hattributes : ∀ a ∈ attributes, r.paint a.value.span = none) :
    Log.Tracks b r (attributes.foldl (fun log a => log ++ [metaVerdict log a]) log)
      ((attributes.map r.assignment).foldl (fun log a => log ++ [metaVerdict log a]) other) := by
  induction attributes generalizing log other with
  | nil => exact h
  | cons a attributes ih =>
    have ha := metaVerdict_assignment h (hattributes a List.mem_cons_self)
    have hnext := h.append (.singleton (congrArg b.verdict ha))
    exact ih hnext fun a' ha' => hattributes a' (List.mem_cons_of_mem a ha')

theorem Log.Tracks.walkMeta (h : log.Tracks b r other) {block : Block}
    (hattributes : ∀ a ∈ block.body.attributes, r.paint a.value.span = none) :
    Log.Tracks b r (walkMeta log block) (walkMeta other (r.block block)) := by
  have hinner : (Body.blocks (r.items block.body)).map
      (fun inner => Verdict.rejected none ⟨.blockInside metaName, inner.kind.span⟩) =
      (block.body.blocks.map fun inner =>
        Verdict.rejected none ⟨.blockInside metaName, inner.kind.span⟩).map r.verdict := by
    rw [blocks_items, List.map_map, List.map_map]
    rfl
  have hblocks := h.append (.of_eq (b := b) hinner)
  have hdone := hblocks.foldl_metaVerdict hattributes
  rw [← attributes_items] at hdone
  exact hdone

/-! ## The whole document -/

namespace Analysis

variable {table : BlockTable} {body : Body}

theorem tracks_outside (b : Blur) (r : Retouch) (table : BlockTable) (body : Body) :
    Log.Tracks b r (outsideVerdicts body ++ blockVerdicts table [] body.blocks)
      (outsideVerdicts (r.items body) ++ blockVerdicts table [] (Body.blocks (r.items body))) := by
  refine .append (.of_eq (outsideVerdicts_items r body)) (.of_eq ?_)
  rw [blocks_items, blockVerdicts_map]

theorem tracks_openingLog (b : Blur) (hnotes : r.SparesNotes body) :
    Log.Tracks b r (openingLog table body) (openingLog table (r.items body)) := by
  rw [openingLog, openingLog, block?_items]
  cases hmeta : body.block? metaName with
  | none => exact tracks_outside b r table body
  | some block => exact (tracks_outside b r table body).walkMeta (hnotes block hmeta)

theorem hasPalette_items (r : Retouch) (table : BlockTable) (body : Body) :
    HasPalette table (r.items body) ↔ HasPalette table body := by
  rw [HasPalette, HasPalette, block?_items, Option.isSome_map]

/-- **The log of the retouched document tracks that of the document**, under any table. -/
theorem tracks_ofBody (hr : b.Hides r) (hnotes : r.SparesNotes body) (flaws flaws' : List Flaw) :
    Log.Tracks b r (ofBody table body flaws).log (ofBody table (r.items body) flaws').log := by
  by_cases h : HasPalette table body
  · have h' := (hasPalette_items r table body).2 h
    have hopening : Stage.Tracks b r ⟨openingLog table body, [], []⟩
        ⟨openingLog table (r.items body), [], []⟩ := ⟨tracks_openingLog b hnotes, rfl⟩
    rw [ofBody_of_hasPalette h, ofBody_of_hasPalette h']
    exact (hopening.walkBlocks hr body table).log
  · have h' := mt (hasPalette_items r table body).1 h
    rw [ofBody_of_not_hasPalette h, ofBody_of_not_hasPalette h']
    exact tracks_outside b r table body

/-- **The retouched document has the same diagnostics**, but for their places. -/
theorem diagnostics_items (hr : b.Hides r) (hnotes : r.SparesNotes body) (flaws : List Flaw) :
    (ofBody table (r.items body) (flaws.map r.flaw)).diagnostics =
      (ofBody table body flaws).diagnostics.map r.diagnostic := by
  have htracks : Log.Tracks b r (ofBody table body flaws).log
      (ofBody table (r.items body) (flaws.map r.flaw)).log := tracks_ofBody hr hnotes _ _
  have hlog := htracks.filterMap_eq b.diagnostic?_verdict r.diagnostic?_verdict
  rw [diagnostics_ofBody, diagnostics_ofBody, List.map_append, List.map_append, hlog]
  congr 1
  · rw [List.map_map, List.map_map]
    rfl
  · simp only [hasPalette_items]
    split
    · rfl
    · exact congrArg (fun s => [Diagnostic.mk .missingPalette s]) r.span_point_zero.symm

end Analysis

end

end ColorTheme

import ColorTheme.Proofs.Account.Finding
import Mathlib.Data.List.Forall2

/-!
# Two walks side by side

The walk asks a log only what it takes, what it defines and which flags it sets, so logs that
answer this alike lead to the same conclusions.

* `Frame.Follows.visitsOfItems` : from progresses that are alike, walks through the same items make
  the same visits, with verdicts that are as much alike as single ones are.
* `Stage.Alike.walkBlocks`, `Stage.Alike.chaptersFrom` : so do walks through the same blocks.
* `Analysis.alike_openingLog` : the logs at the first block are alike if the `meta` blocks are the
  same.
-/

set_option autoImplicit false

namespace ColorTheme

/-- The logs give the same answers to the walk. -/
structure Log.Alike (log other : Log) : Prop where
  takes : ∀ path, other.takes path = log.takes path
  defines : ∀ path, other.defines path = log.defines path
  flag : ∀ group flag, other.flag group flag = log.flag group flag

/-- The verdicts change the answers of a log, and the tree of a block, in the same way. -/
structure Verdict.Akin (v w : Verdict) : Prop where
  taken : w.taken? = v.taken?
  symbol : w.symbol? = v.symbol?
  flag : w.flag? = v.flag?
  location : w.location? = v.location?

/-- The walks have come to the same point: their logs give the same answers, and the trees of the
block are the same. -/
structure Progress.Alike (p q : Progress) : Prop where
  log : p.log.Alike q.log
  tree : q.tree = p.tree

/-- Visits to the same item, with verdicts that stand in the relation for this item. -/
structure Visit.Matches (R : Path → Item → Verdict → Verdict → Prop) (v w : Visit) : Prop where
  rule : w.rule = v.rule
  enclosing : w.enclosing = v.enclosing
  item : w.item = v.item
  verdict : R v.enclosing v.item v.verdict w.verdict

/-- The frames belong to one rule, and from progresses that are alike they come to verdicts in the
relation. -/
structure Frame.Follows (R : Path → Item → Verdict → Verdict → Prop) (frame other : Frame) :
    Prop where
  rule : other.rule = frame.rule
  akin : ∀ {enclosing item v w}, R enclosing item v w → v.Akin w
  verdict : ∀ {p q : Progress}, p.Alike q → ∀ enclosing item,
    R enclosing item (frame.verdict p enclosing item) (other.verdict q enclosing item)

/-! ## Logs -/

/-- Where lists stand in a relation, so does each member. -/
theorem exists_of_forall₂ {α β : Type} {R : α → β → Prop} {xs : List α} {ys : List β}
    (h : List.Forall₂ R xs ys) {x : α} (hx : x ∈ xs) : ∃ y ∈ ys, R x y := by
  induction h with
  | nil => cases hx
  | @cons x' y xs ys hxy _ ih =>
    rcases List.mem_cons.1 hx with rfl | hx
    · exact ⟨y, List.mem_cons_self, hxy⟩
    · obtain ⟨z, hz, hxz⟩ := ih hx
      exact ⟨z, List.mem_cons_of_mem y hz, hxz⟩

theorem Verdict.Akin.refl (v : Verdict) : v.Akin v := ⟨rfl, rfl, rfl, rfl⟩

/-- A color is akin to nothing but itself. -/
theorem Verdict.Akin.eq_of_colored {path : Path} {name : Span} {location : ColorLocation}
    {w : Verdict} (h : (colored path name location).Akin w) : w = .colored path name location := by
  have hlocation := h.location
  have hsymbol := h.symbol
  cases w with
  | colored _ _ _ => cases hlocation; cases hsymbol; rfl
  | flagged _ _ _ _ | opened _ _ | noted _ _ _ | rejected _ _ | incomplete _ => cases hlocation

namespace Log.Alike

variable {log other : Log}

theorem refl (log : Log) : log.Alike log := ⟨fun _ => rfl, fun _ => rfl, fun _ _ => rfl⟩

theorem concat {v w : Verdict} (h : log.Alike other) (hv : v.Akin w) :
    Log.Alike (log ++ [v]) (other ++ [w]) where
  takes path := by
    have hlog : List.any other _ = List.any log _ := h.takes path
    simp only [Log.takes, List.any_append, List.any_cons, List.any_nil, hlog, hv.taken]
  defines path := by
    have hlog : List.any other _ = List.any log _ := h.defines path
    simp only [Log.defines, List.any_append, List.any_cons, List.any_nil, hlog, hv.symbol]
  flag group flag := by
    have hlog : List.any other _ = List.any log _ := h.flag group flag
    simp only [Log.flag, List.any_append, List.any_cons, List.any_nil, hlog, hv.flag]

theorem append_akin {vs ws : Log} (h : log.Alike other) (hvs : List.Forall₂ Verdict.Akin vs ws) :
    Log.Alike (log ++ vs) (other ++ ws) := by
  induction hvs generalizing log other with
  | nil => rwa [List.append_nil, List.append_nil]
  | cons hv _ ih =>
    have hrest := ih (h.concat hv)
    rwa [List.append_assoc, List.append_assoc] at hrest

theorem append (h : log.Alike other) (verdicts : Log) :
    Log.Alike (log ++ verdicts) (other ++ verdicts) :=
  h.append_akin (List.forall₂_same.2 fun v _ => .refl v)

end Log.Alike

/-- Verdicts that only reject items, and do not even take their paths, answer nothing. -/
theorem Log.alike_of_rejected {log other : Log} (h : ∀ v ∈ log, ∃ d, v = .rejected none d)
    (h' : ∀ v ∈ other, ∃ d, v = .rejected none d) : log.Alike other := by
  have silent {log : Log} (h : ∀ v ∈ log, ∃ d, v = .rejected none d) {asks : Verdict → Bool}
      (hasks : ∀ d, asks (.rejected none d) = false) : log.any asks = false := by
    refine List.any_eq_false.2 fun v hv => ?_
    obtain ⟨d, rfl⟩ := h v hv
    rw [hasks d]
    exact Bool.false_ne_true
  exact ⟨fun _ => (silent h' fun _ => rfl).trans (silent h fun _ => rfl).symm,
    fun _ => (silent h' fun _ => rfl).trans (silent h fun _ => rfl).symm,
    fun _ _ => (silent h' fun _ => rfl).trans (silent h fun _ => rfl).symm⟩

/-! ## Inside a block -/

namespace Progress.Alike

variable {p q : Progress} {rule : BlockRule}

theorem record {v w : Verdict} (h : p.Alike q) (hv : v.Akin w) :
    (p.record rule v).Alike (q.record rule w) := by
  refine ⟨h.log.concat hv, ?_⟩
  cases v with
  | colored path name location =>
    rw [hv.eq_of_colored, Progress.record, Progress.record, h.tree]
  | flagged _ _ _ _ | opened _ _ | noted _ _ _ | rejected _ _ | incomplete _ =>
    cases w with
    | colored _ _ _ => cases hv.location
    | flagged _ _ _ _ | opened _ _ | noted _ _ _ | rejected _ _ | incomplete _ => exact h.tree

/-- Walks whose verdicts are akin, one by one, come to the same point. -/
theorem after_akin {vs ws : List Visit} (h : p.Alike q)
    (hvs : List.Forall₂ (fun v w => v.verdict.Akin w.verdict) vs ws) :
    (p.after rule vs).Alike (q.after rule ws) := by
  induction hvs generalizing p q with
  | nil => exact h
  | cons hv _ ih => exact ih (h.record hv)

theorem after {R : Path → Item → Verdict → Verdict → Prop} {vs ws : List Visit}
    (hR : ∀ {enclosing item v w}, R enclosing item v w → v.Akin w) (h : p.Alike q)
    (hvs : List.Forall₂ (Visit.Matches R) vs ws) : (p.after rule vs).Alike (q.after rule ws) :=
  h.after_akin (hvs.imp fun _ _ hv => hR hv.verdict)

end Progress.Alike

theorem groupVerdict_alike {log other : Log} (h : log.Alike other) (rule : BlockRule)
    (enclosing : Path) (kind : Ident) :
    groupVerdict rule other enclosing kind = groupVerdict rule log enclosing kind := by
  simp only [groupVerdict, h.takes]

section

variable {R : Path → Item → Verdict → Verdict → Prop} {frame other : Frame}

mutual

theorem Frame.Follows.visitsOfItem (h : frame.Follows R other) : ∀ (enclosing : Path)
    {p q : Progress} (item : Item), p.Alike q →
    List.Forall₂ (Visit.Matches R) (visitsOfItem frame enclosing p item)
      (visitsOfItem other enclosing q item)
  | enclosing, _, _, .assignment a, hp =>
    .cons ⟨h.rule, rfl, rfl, h.verdict hp enclosing (.assignment a)⟩ .nil
  | enclosing, p, q, .block kind body span, hp => by
    have hverdict : R enclosing (.block kind body span)
        (groupVerdict frame.rule p.log enclosing kind)
        (groupVerdict other.rule q.log enclosing kind) :=
      h.verdict hp enclosing (.block kind body span)
    have hsame : groupVerdict other.rule q.log enclosing kind =
        groupVerdict frame.rule p.log enclosing kind := by
      rw [h.rule, groupVerdict_alike hp.log]
    rw [ColorTheme.visitsOfItem, ColorTheme.visitsOfItem]
    refine .cons ⟨h.rule, rfl, rfl, hverdict⟩ ?_
    rw [hsame]
    cases groupVerdict frame.rule p.log enclosing kind with
    | opened path name =>
      dsimp only
      rw [h.rule]
      exact h.visitsOfItems path body (hp.record (.refl _))
    | colored _ _ _ | flagged _ _ _ _ | noted _ _ _ | rejected _ _ | incomplete _ => exact .nil

/-- **Walks from progresses that are alike make the same visits.** -/
theorem Frame.Follows.visitsOfItems (h : frame.Follows R other) : ∀ (enclosing : Path)
    {p q : Progress} (items : List Item), p.Alike q →
    List.Forall₂ (Visit.Matches R) (visitsOfItems frame enclosing p items)
      (visitsOfItems other enclosing q items)
  | _, _, _, [], _ => .nil
  | enclosing, p, q, item :: items, hp => by
    rw [ColorTheme.visitsOfItems, ColorTheme.visitsOfItems]
    have hitem := h.visitsOfItem enclosing item hp
    have hnext : (walkItem frame enclosing p item).Alike (walkItem other enclosing q item) := by
      rw [walkItem_eq_after, walkItem_eq_after, h.rule]
      exact hp.after h.akin hitem
    exact List.rel_append hitem (h.visitsOfItems enclosing items hnext)

end

/-- The walks end alike, too. -/
theorem Frame.Follows.walkItem (h : frame.Follows R other) (enclosing : Path) {p q : Progress}
    (item : Item) (hp : p.Alike q) :
    (walkItem frame enclosing p item).Alike (walkItem other enclosing q item) := by
  rw [walkItem_eq_after, walkItem_eq_after, h.rule]
  exact hp.after h.akin (h.visitsOfItem enclosing item hp)

theorem Frame.Follows.walkItems (h : frame.Follows R other) (enclosing : Path) {p q : Progress}
    (items : List Item) (hp : p.Alike q) :
    (walkItems frame enclosing p items).Alike (walkItems other enclosing q items) := by
  rw [walkItems_eq_after, walkItems_eq_after, h.rule]
  exact hp.after h.akin (h.visitsOfItems enclosing items hp)

end

/-- Where the verdicts are the same, so are the visits. -/
theorem eq_of_forall₂_matches {vs ws : List Visit}
    (h : List.Forall₂ (Visit.Matches fun _ _ v w => w = v) vs ws) : ws = vs := by
  induction h with
  | nil => rfl
  | @cons v w _ _ hv _ ih =>
    obtain ⟨hrule, henclosing, hitem, hverdict⟩ := hv
    cases v
    cases w
    cases hrule
    cases henclosing
    cases hitem
    cases hverdict
    rw [ih]

theorem attributeVerdict_alike (frame : Frame) {p q : Progress} (h : p.Alike q) (enclosing : Path)
    (a : Attribute) : attributeVerdict frame q enclosing a = attributeVerdict frame p enclosing a := by
  have hcycle : frame.cycle? q.log = frame.cycle? p.log := by
    funext enclosing reference
    rw [Frame.cycle?, Frame.cycle?, h.log.defines]
  have hcomplaint : frame.complaint q.log = frame.complaint p.log := by
    funext enclosing a failure
    rw [Frame.complaint, Frame.complaint, hcycle]
  rw [attributeVerdict, attributeVerdict, h.tree, h.log.takes, hcomplaint]

/-- A frame comes to the same verdicts wherever the walk has got to the same. -/
theorem Frame.follows_self (frame : Frame) : frame.Follows (fun _ _ v w => w = v) frame where
  rule := rfl
  akin h := h ▸ .refl _
  verdict hp enclosing item := by
    cases item with
    | assignment a => exact attributeVerdict_alike frame hp enclosing a
    | block kind body span => exact groupVerdict_alike hp.log frame.rule enclosing kind

/-! ## From block to block -/

/-- The stages differ at most in the log, and the logs give the same answers. -/
structure Stage.Alike (stage other : Stage) : Prop where
  log : stage.log.Alike other.log
  scopes : other.scopes = stage.scopes
  styles : other.styles = stage.styles

/-- Chapters on the same block that begin alike. -/
structure Chapter.Alike (c e : Chapter) : Prop where
  rule : e.rule = c.rule
  block : e.block = c.block
  stage : c.stage.Alike e.stage

namespace Chapter.Alike

variable {c e : Chapter}

theorem frame (h : c.Alike e) : e.frame = c.frame := by
  rw [Chapter.frame, Chapter.frame, h.rule, h.block, h.stage.scopes]

theorem start (h : c.Alike e) : c.start.Alike e.start := by
  refine ⟨?_, rfl⟩
  rw [Chapter.start, Chapter.start, h.rule, h.block]
  exact h.stage.log.concat (.refl _)

theorem visits (h : c.Alike e) : e.visits = c.visits := by
  rw [Chapter.visits, Chapter.visits, h.frame, h.rule, h.block]
  exact eq_of_forall₂_matches (c.frame.follows_self.visitsOfItems _ _ h.start)

theorem done (h : c.Alike e) :
    (c.start.after c.rule c.visits).Alike (e.start.after e.rule e.visits) := by
  have hwalk := c.frame.follows_self.walkItems [c.rule.name] c.block.body h.start
  rw [walkItems_eq_after, walkItems_eq_after] at hwalk
  rw [Chapter.visits, Chapter.visits, h.frame, h.rule, h.block]
  exact hwalk

theorem verdicts (h : c.Alike e) : e.verdicts = c.verdicts := by
  rw [Chapter.verdicts, Chapter.verdicts, h.visits, h.rule, h.block]

end Chapter.Alike

theorem flatMap_verdicts_alike {cs es : List Chapter} (h : List.Forall₂ Chapter.Alike cs es) :
    es.flatMap Chapter.verdicts = cs.flatMap Chapter.verdicts := by
  induction h with
  | nil => rfl
  | cons hc _ ih => rw [List.flatMap_cons, List.flatMap_cons, hc.verdicts, ih]

theorem stylesOf_alike {log other : Log} (h : log.Alike other) (name : String) (tree : Node) :
    stylesOf other name tree = stylesOf log name tree := by
  unfold stylesOf
  simp only [h.flag]

namespace Stage.Alike

variable {stage other : Stage} {body body' : Body} {table : BlockTable}

theorem enter (h : stage.Alike other) (rule : BlockRule) (block : Block) :
    (stage.enter rule block).Alike (other.enter rule block) := by
  have hc : (Chapter.mk rule block stage).Alike ⟨rule, block, other⟩ := ⟨rfl, rfl, h⟩
  have htree : (Chapter.mk rule block other).tree = (Chapter.mk rule block stage).tree :=
    hc.done.tree
  have hlog : (Chapter.mk rule block stage).log.Alike (Chapter.mk rule block other).log :=
    hc.done.log
  constructor
  · rw [(Chapter.mk rule block stage).log_enter, (Chapter.mk rule block other).log_enter,
      hc.verdicts]
    exact h.log.append _
  · rw [(Chapter.mk rule block stage).scopes_enter, (Chapter.mk rule block other).scopes_enter,
      htree, h.scopes]
  · rw [(Chapter.mk rule block stage).styles_enter, (Chapter.mk rule block other).styles_enter,
      htree, stylesOf_alike hlog, h.styles]

/-- **Stages that are alike stay so where the blocks of the table are the same.** -/
theorem walkBlocks (h : stage.Alike other)
    (hblocks : ∀ rule ∈ table, body'.block? rule.name = body.block? rule.name) :
    (walkBlocks body stage table).Alike (walkBlocks body' other table) := by
  induction table generalizing stage other with
  | nil => exact h
  | cons rule rules ih =>
    rw [ColorTheme.walkBlocks, ColorTheme.walkBlocks, hblocks rule List.mem_cons_self]
    have hrules : ∀ rule ∈ rules, body'.block? rule.name = body.block? rule.name :=
      fun rule hrule => hblocks rule (List.mem_cons_of_mem _ hrule)
    cases body.block? rule.name with
    | none => exact ih h hrules
    | some block => exact ih (h.enter rule block) hrules

/-- The chapters are alike, one by one. -/
theorem chaptersFrom (h : stage.Alike other)
    (hblocks : ∀ rule ∈ table, body'.block? rule.name = body.block? rule.name) :
    List.Forall₂ Chapter.Alike (chaptersFrom body stage table) (chaptersFrom body' other table) := by
  induction table generalizing stage other with
  | nil => exact .nil
  | cons rule rules ih =>
    rw [ColorTheme.chaptersFrom, ColorTheme.chaptersFrom, hblocks rule List.mem_cons_self]
    have hrules : ∀ rule ∈ rules, body'.block? rule.name = body.block? rule.name :=
      fun rule hrule => hblocks rule (List.mem_cons_of_mem _ hrule)
    cases body.block? rule.name with
    | none => exact ih h hrules
    | some block => exact .cons ⟨rfl, rfl, h⟩ (ih (h.enter rule block) hrules)

end Stage.Alike

/-! ## Before the first block -/

theorem metaVerdict_alike {log other : Log} (h : log.Alike other) (a : Attribute) :
    metaVerdict other a = metaVerdict log a := by
  simp only [metaVerdict, h.takes]

theorem noteFindings_alike {log other : Log} (h : log.Alike other) (attributes : List Attribute) :
    noteFindings other attributes = noteFindings log attributes := by
  induction attributes generalizing log other with
  | nil => rfl
  | cons a attributes ih =>
    rw [noteFindings, noteFindings, metaVerdict_alike h, ih (h.append _)]

theorem metaFindings_alike {log other : Log} (h : log.Alike other) (block : Block) :
    metaFindings other block = metaFindings log block := by
  rw [metaFindings, metaFindings, noteFindings_alike (h.append _)]

namespace Analysis

variable {table : BlockTable} {body body' : Body}

/-- What stands outside of all blocks has no part in the answers of the log. -/
theorem alike_outside (table : BlockTable) (body body' : Body) :
    Log.Alike (outsideVerdicts body ++ blockVerdicts table [] body.blocks)
      (outsideVerdicts body' ++ blockVerdicts table [] body'.blocks) :=
  Log.alike_of_rejected (fun _ => rejected_of_mem_outside) fun _ => rejected_of_mem_outside

/-- **The logs at the first block give the same answers if the `meta` blocks are the same.** -/
theorem alike_openingLog (hmeta : body'.block? metaName = body.block? metaName) :
    (openingLog table body).Alike (openingLog table body') := by
  rw [openingLog, openingLog, hmeta]
  cases body.block? metaName with
  | none => exact alike_outside table body body'
  | some block =>
    dsimp only
    rw [walkMeta_eq, walkMeta_eq, metaFindings_alike (alike_outside table body body')]
    exact (alike_outside table body body').append _

end Analysis

end ColorTheme

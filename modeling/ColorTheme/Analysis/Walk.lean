import ColorTheme.Analysis.Verdict
import ColorTheme.BlockTable
import ColorTheme.Decimal.Shortest

/-!
# The walk through a document

Blocks are worked out in the order of the table, and the items of a block in the order of the
source.  An item sees the blocks that were worked out before its own; in a self-referencing
block it also sees what its own block holds so far.  For each item one function decides
(`attributeVerdict`, `groupVerdict`, `metaVerdict`) and `Progress.record` takes the verdict down.

* A reference into the own block that fails is called circular when it leads to a block around
  the item, or to something that the block declares but that is not defined yet.
-/

set_option autoImplicit false

namespace ColorTheme

mutual

/-- The paths that an item of the block `enclosing` declares, whether they resolve or not. -/
def Item.declared (enclosing : Path) : Item → List Path
  | .assignment a => [enclosing ++ [a.name.name]]
  | .block kind body _ =>
    (enclosing ++ [kind.name]) :: declaredByAll (enclosing ++ [kind.name]) body

/-- The paths that the items of the block `enclosing` declare. -/
def declaredByAll (enclosing : Path) : List Item → List Path
  | [] => []
  | item :: items => item.declared enclosing ++ declaredByAll enclosing items

end

/-- What holds for all items of one top-level block: its rule, the paths it declares, and the
trees of the blocks before it. -/
structure Frame where
  rule : BlockRule
  declared : List Path
  earlier : Scopes

/-- The log so far, and the tree of the block that is being walked. -/
structure Progress where
  log : Log
  tree : Node

/-- What an item of the block can see. -/
def Frame.visible (frame : Frame) (tree : Node) : Scopes :=
  if frame.rule.selfReferencing then frame.earlier.put frame.rule.name tree else frame.earlier

/-- The path, below the block, of the node that an attribute colors.  In a block that may hold
blocks, `color` is the own color of the block around it. -/
def BlockRule.target (rule : BlockRule) (path : Path) : List String :=
  if rule.nesting ∧ path.getLast? = some colorKey then path.dropLast.tail else path.tail

/-- The progress after one more verdict. -/
def Progress.record (rule : BlockRule) (p : Progress) (v : Verdict) : Progress :=
  { log := p.log ++ [v]
    tree := match v with
      | .colored path _ location => p.tree.setColor (rule.target path) (some location.color)
      | _ => p.tree }

/-- Why a reference from inside the block `enclosing` cannot be followed, if its own block is the
reason. -/
def Frame.cycle? (frame : Frame) (log : Log) (enclosing reference : Path) : Option CycleReason :=
  if reference.isPrefixOf enclosing then some .encloses
  else if reference ∈ frame.declared ∧ log.defines reference = false then some .later
  else none

/-- The problem of an attribute whose value cannot be worked out. -/
def Frame.complaint (frame : Frame) (log : Log) (enclosing : Path) (a : Attribute)
    (failure : EvalError) : Problem :=
  if frame.rule.selfReferencing then
    let pending := a.value.references.findSome? fun reference =>
      (frame.cycle? log enclosing reference).map fun reason => (reference, reason)
    match pending with
    | some (reference, reason) => .circular a.name.name reference reason
    | none => .unresolved failure
  else .unresolved failure

/-- The style flag that an attribute of the block `enclosing` sets, if it sets one: flags stand in
the blocks inside a styled block. -/
def BlockRule.flag? (rule : BlockRule) (enclosing : Path) (name : String) : Option StyleFlag :=
  if rule.styled ∧ 1 < enclosing.length then StyleFlag.ofName? name else none

/-- The rule lets an attribute of the given name stand in the block. -/
def BlockRule.allows (rule : BlockRule) (name : String) : Bool :=
  match rule.allowedNames with
  | some allowed => allowed.contains name
  | none => true

/-- The verdict on an attribute of the block `enclosing`. -/
def attributeVerdict (frame : Frame) (p : Progress) (enclosing : Path) (a : Attribute) : Verdict :=
  let name := a.name.name
  let path := enclosing ++ [name]
  let visible := frame.visible p.tree
  if frame.rule.allows name = false then
    .rejected none
      ⟨.nameNotAllowed frame.rule.name name (frame.rule.allowedNames.getD []), a.name.span⟩
  else if p.log.takes path then .rejected none ⟨.duplicateDefinition path, a.name.span⟩
  else
    let failed (failure : EvalError) : Verdict :=
      .rejected (some path) ⟨frame.complaint p.log enclosing a failure, a.value.span⟩
    match frame.rule.flag? enclosing name with
    | some flag =>
      match evaluate visible a.value with
      | .ok (.truth value) => .flagged path a.name.span flag value
      | .ok other => .rejected (some path) ⟨.flagNotTruth name other.type, a.value.span⟩
      | .error failure => failed failure
    | none =>
      match visible.resolve a.value with
      | .ok color => .colored path a.name.span ⟨a.value.span, color, a.value.isReference⟩
      | .error failure => failed failure

/-- The verdict on a block inside the block `enclosing`. -/
def groupVerdict (rule : BlockRule) (log : Log) (enclosing : Path) (kind : Ident) : Verdict :=
  let path := enclosing ++ [kind.name]
  if rule.nesting = false then .rejected none ⟨.blockInside rule.name, kind.span⟩
  else if kind.name = colorKey then .rejected none ⟨.reservedName, kind.span⟩
  else if log.takes path then .rejected none ⟨.duplicateDefinition path, kind.span⟩
  else .opened path kind.span

mutual

/-- The progress after an item of the block `enclosing`.  A rejected block is not looked into. -/
def walkItem (frame : Frame) (enclosing : Path) (p : Progress) : Item → Progress
  | .assignment a => p.record frame.rule (attributeVerdict frame p enclosing a)
  | .block kind body _ =>
    let verdict := groupVerdict frame.rule p.log enclosing kind
    match verdict with
    | .opened path _ => walkItems frame path (p.record frame.rule verdict) body
    | _ => p.record frame.rule verdict

/-- The progress after items of the block `enclosing`. -/
def walkItems (frame : Frame) (enclosing : Path) (p : Progress) : List Item → Progress
  | [] => p
  | item :: items => walkItems frame enclosing (walkItem frame enclosing p item) items

end

/-- The verdict on a block that lacks some of the names it must define, if it does. -/
def completenessVerdicts (rule : BlockRule) (block : Block) : Log :=
  match rule.allowedNames with
  | none => []
  | some required =>
    let assigned := block.body.attributes.map (·.name.name)
    match required.filter (!assigned.contains ·) with
    | [] => []
    | missing => [.incomplete ⟨.incomplete rule.name missing, block.kind.span⟩]

/-- The log, the trees and the styles of the blocks worked out so far. -/
structure Stage where
  log : Log
  scopes : Scopes
  styles : Entries String Style

/-- The styles of a styled block: its colored nodes, with the flags that stand beside them. -/
def stylesOf (log : Log) (block : String) (tree : Node) : Entries String Style :=
  (tree.colorsFrom []).filterMap fun (path, color) =>
    if (Node.listed path).isEmpty then none
    else
      let flag := log.flag (block :: path)
      some (Node.listed path, ⟨color, flag .bold, flag .italic, flag .underline⟩)

/-- Works out one top-level block. -/
def Stage.enter (stage : Stage) (rule : BlockRule) (block : Block) : Stage :=
  let frame : Frame := ⟨rule, declaredByAll [rule.name] block.body, stage.scopes⟩
  let start : Progress := ⟨stage.log ++ [.opened [rule.name] block.kind.span], .blank⟩
  let done := walkItems frame [rule.name] start block.body
  { log := done.log ++ completenessVerdicts rule block
    scopes := stage.scopes.put rule.name done.tree
    styles :=
      if rule.styled then stage.styles.putAll (stylesOf done.log rule.name done.tree)
      else stage.styles }

/-- The text of a literal in a note; nothing for a path or a call. -/
def literalText? : Expr → Option String
  | .quoted text _ => some text
  | .hex text _ => some text
  | .number value _ => some (shortestText value)
  | .truth value _ => some (if value then "true" else "false")
  | .path _ _ _ => none
  | .call _ _ _ => none

/-- The verdict on an attribute of the `meta` block. -/
def metaVerdict (log : Log) (a : Attribute) : Verdict :=
  let path := [metaName, a.name.name]
  if log.takes path then .rejected none ⟨.duplicateDefinition path, a.name.span⟩
  else
    match literalText? a.value with
    | some text => .noted a.name.name a.name.span text
    | none => .rejected (some path) ⟨.notLiteral a.name.name, a.value.span⟩

/-- The log after the `meta` block: first the blocks in it, which are all rejected, then its
attributes. -/
def walkMeta (log : Log) (block : Block) : Log :=
  let blocks := block.body.blocks.map fun inner =>
    Verdict.rejected none ⟨.blockInside metaName, inner.kind.span⟩
  block.body.attributes.foldl (fun log a => log ++ [metaVerdict log a]) (log ++ blocks)

/-- The verdicts on the attributes outside of all blocks. -/
def outsideVerdicts (body : Body) : Log :=
  body.attributes.map fun a =>
    .rejected none ⟨.topLevelAttribute a.name.name, a.name.span⟩

/-- The verdicts on top-level blocks that cannot be entered: those of unknown names, and those
after the first of their name. -/
def blockVerdicts (table : BlockTable) (seen : List String) : List Block → Log
  | [] => []
  | block :: blocks =>
    let name := block.kind.name
    if table.knows name = false then
      .rejected none ⟨.unknownBlock name table.blockNames, block.kind.span⟩ ::
        blockVerdicts table seen blocks
    else if name ∈ seen then
      .rejected none ⟨.duplicateBlock name, block.kind.span⟩ :: blockVerdicts table seen blocks
    else blockVerdicts table (name :: seen) blocks

/-- The first block of the given name. -/
def Body.block? (body : Body) (name : String) : Option Block :=
  body.blocks.find? (·.kind.name == name)

/-- Works out the blocks that the rules speak of, in the order of the rules. -/
def walkBlocks (body : Body) (stage : Stage) : BlockTable → Stage
  | [] => stage
  | rule :: rules =>
    match body.block? rule.name with
    | some block => walkBlocks body (stage.enter rule block) rules
    | none => walkBlocks body stage rules

end ColorTheme

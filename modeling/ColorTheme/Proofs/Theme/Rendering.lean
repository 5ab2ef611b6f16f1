import ColorTheme.Proofs.Node.Children
import ColorTheme.Proofs.Theme.Reader
import ColorTheme.Proofs.Theme.WellNamed

/-!
# Themes read back from their documents

* `Theme.ofJson?` : the theme that a document tells of.  A text is a color and an object a group,
  whose member `color` is its own color; `meta` and `styles` stand beside the blocks.
* `Theme.Same` : themes that differ in nothing but the order of entries, as trees do that are
  `Node.Same`.
* `Node.exists_ofJson?`, `Theme.exists_ofJson?` : where names can be told apart, nothing is lost.
* `Theme.exists_read_of_settled` : so a theme that is settled can be read back from its rendering.
-/

set_option autoImplicit false

namespace ColorTheme

/-! ## Members -/

namespace Json

variable {α β : Type}

theorem insertMember_perm {key : String} {value : α} {members : List (String × α)}
    (h : key ∉ Entries.keys members) :
    (insertMember key value members).Perm ((key, value) :: members) := by
  induction members with
  | nil => exact .refl _
  | cons first rest ih =>
    obtain ⟨k, v⟩ := first
    rw [Entries.keys, List.map_cons, List.mem_cons, not_or] at h
    rw [insertMember, if_neg (Ne.symm h.1)]
    split
    · exact .refl _
    · exact ((ih h.2).cons _).trans (.swap _ _ _)

/-- **Sorting loses no member**, if their keys are different. -/
theorem sortMembers_perm {members : List (String × α)} (h : (Entries.keys members).Nodup) :
    (sortMembers members).Perm members := by
  suffices hfold : ∀ sorted : List (String × α), (Entries.keys (members ++ sorted)).Nodup →
      (members.foldl (fun sorted m => insertMember m.1 m.2 sorted) sorted).Perm
        (members ++ sorted) by
    have hsorted := hfold [] (by rwa [List.append_nil])
    rwa [List.append_nil] at hsorted
  clear h
  induction members with
  | nil => exact fun sorted _ => .refl _
  | cons first rest ih =>
    obtain ⟨key, value⟩ := first
    intro sorted h
    obtain ⟨hfresh, hrest⟩ := List.nodup_cons.1 h
    have hnot : key ∉ Entries.keys sorted := fun hmem =>
      hfresh (List.map_append ▸ List.mem_append_right _ hmem)
    have hinsert : (insertMember key value sorted).Perm ((key, value) :: sorted) :=
      insertMember_perm hnot
    have hmoved : (rest ++ insertMember key value sorted).Perm ((key, value) :: (rest ++ sorted)) :=
      (hinsert.append_left rest).trans List.perm_middle
    exact (ih _ ((hmoved.map Prod.fst).nodup_iff.2 h)).trans hmoved

/-- The values of all members, if each can be read. -/
def valuesOf? (read : Json → Option α) : List (String × Json) → Option (Entries String α)
  | [] => some []
  | (key, value) :: rest =>
    (read value).bind fun v => (valuesOf? read rest).map fun others => (key, v) :: others

/-- The entries of an object. -/
def entries? (read : Json → Option α) : Json → Option (Entries String α)
  | object members => valuesOf? read members
  | _ => none

/-- A text. -/
def text? : Json → Option String
  | text s => some s
  | _ => none

/-- A truth value. -/
def truth? : Json → Option Bool
  | truth b => some b
  | _ => none

/-- Values that are read from members in one order can be read in any other. -/
theorem valuesOf?_of_perm {read : Json → Option α} {ms ns : List (String × Json)}
    (h : ns.Perm ms) {es : Entries String α} (hes : valuesOf? read ms = some es) :
    ∃ fs, valuesOf? read ns = some fs ∧ fs.Perm es := by
  induction h generalizing es with
  | nil => exact ⟨es, hes, .refl _⟩
  | @cons first ns ms _ ih =>
    obtain ⟨key, value⟩ := first
    rw [valuesOf?] at hes
    obtain ⟨v, hv, hes⟩ := Option.bind_eq_some_iff.1 hes
    obtain ⟨others, hothers, rfl⟩ := Option.map_eq_some_iff.1 hes
    obtain ⟨fs, hfs, hperm⟩ := ih hothers
    refine ⟨(key, v) :: fs, ?_, hperm.cons _⟩
    rw [valuesOf?, hv, Option.bind_some, hfs, Option.map_some]
  | swap first second ms =>
    obtain ⟨key, value⟩ := first
    obtain ⟨key', value'⟩ := second
    rw [valuesOf?] at hes
    obtain ⟨v, hv, hes⟩ := Option.bind_eq_some_iff.1 hes
    obtain ⟨rest, hrest, rfl⟩ := Option.map_eq_some_iff.1 hes
    rw [valuesOf?] at hrest
    obtain ⟨w, hw, hrest⟩ := Option.bind_eq_some_iff.1 hrest
    obtain ⟨others, hothers, rfl⟩ := Option.map_eq_some_iff.1 hrest
    refine ⟨(key', w) :: (key, v) :: others, ?_, .swap _ _ _⟩
    rw [valuesOf?, hw, Option.bind_some, valuesOf?, hv, Option.bind_some, hothers]
    rfl
  | trans _ _ ih ih' =>
    obtain ⟨fs, hfs, hperm⟩ := ih' hes
    obtain ⟨gs, hgs, hperm'⟩ := ih hfs
    exact ⟨gs, hgs, hperm'.trans hperm⟩

theorem exists_valuesOf?_map {read : Json → Option β} {written : α → Json} {R : α → β → Prop}
    {es : Entries String α} (h : ∀ e ∈ es, ∃ b, read (written e.2) = some b ∧ R e.2 b) :
    ∃ fs, valuesOf? read (es.mapValues written) = some fs ∧ es.Matches R fs := by
  induction es with
  | nil => exact ⟨[], rfl, .nil⟩
  | cons first rest ih =>
    obtain ⟨key, a⟩ := first
    rw [List.forall_mem_cons] at h
    obtain ⟨⟨b, hread, hvalue⟩, hrest⟩ := h
    obtain ⟨fs, hfs, hmatches⟩ := ih hrest
    refine ⟨(key, b) :: fs, ?_, .cons hvalue hmatches (.refl _)⟩
    rw [Entries.mapValues_cons, valuesOf?, hread, Option.bind_some, hfs, Option.map_some]

/-- **Entries that are written as members are read from them**, in whatever order they stand. -/
theorem exists_valuesOf? {read : Json → Option β} {written : α → Json} {R : α → β → Prop}
    {es : Entries String α} {members : List (String × Json)}
    (hperm : members.Perm (es.mapValues written))
    (h : ∀ e ∈ es, ∃ b, read (written e.2) = some b ∧ R e.2 b) :
    ∃ fs, valuesOf? read members = some fs ∧ es.Matches R fs := by
  obtain ⟨fs, hfs, hmatches⟩ := exists_valuesOf?_map h
  obtain ⟨gs, hgs, hgsperm⟩ := valuesOf?_of_perm hperm hfs
  exact ⟨gs, hgs, hmatches.perm hgsperm⟩

end Json

/-! ## Trees -/

/-- The color of a text. -/
def Color.ofJson? : Json → Option Color
  | .text s => Color.ofHex? s
  | _ => none

/-- The color under `color`, if there is one there. -/
def Node.ownColor? (members : List (String × Json)) : Option (Option Color) :=
  match Entries.get? colorKey members with
  | none => some none
  | some value => (Color.ofJson? value).map some

mutual

/-- The tree of a value. -/
def Node.ofJson? : Json → Option Node
  | .text s => (Color.ofHex? s).map Node.leaf
  | .truth _ => none
  | .object members =>
    (Node.ownColor? members).bind fun own =>
      (childrenOf? members).map fun children => ⟨own, children⟩

/-- The trees of all members but `color`. -/
def childrenOf? : List (String × Json) → Option (Entries String Node)
  | [] => some []
  | (key, value) :: rest =>
    if key = colorKey then childrenOf? rest
    else (Node.ofJson? value).bind fun child =>
      (childrenOf? rest).map fun others => (key, child) :: others

end

namespace Node

theorem childrenOf?_eq (members : List (String × Json)) :
    childrenOf? members = Json.valuesOf? ofJson? (members.filter fun m => m.1 ≠ colorKey) := by
  induction members with
  | nil => rw [childrenOf?]; rfl
  | cons first rest ih =>
    obtain ⟨key, value⟩ := first
    rw [childrenOf?, ih]
    by_cases h : key = colorKey
    · rw [if_pos h, List.filter_cons_of_neg (by simpa using h)]
    · rw [if_neg h, List.filter_cons_of_pos (by simpa using h), Json.valuesOf?]

theorem membersOf_eq (children : Entries String Node) :
    membersOf children = children.mapValues toJson := by
  induction children with
  | nil =>
    rw [membersOf]
    rfl
  | cons first rest ih => rw [membersOf, ih, Entries.mapValues_cons]

/-- The members of a node as they are put together. -/
def members (own : Option Color) (children : Entries String Node) : List (String × Json) :=
  own.toList.map (fun color => (colorKey, color.toJson)) ++
    children.mapValues toJson

theorem toJson_eq {own : Option Color} {children : Entries String Node}
    (h : own = none ∨ children ≠ []) :
    (mk own children).toJson = .object (Json.sortMembers (members own children)) := by
  rw [members, ← membersOf_eq, toJson, Json.ofMembers]
  rintro color rfl rfl
  exact h.elim (fun h => by cases h) (fun h => h rfl)

variable {own : Option Color} {children : Entries String Node}

theorem keys_members (own : Option Color) (children : Entries String Node) :
    Entries.keys (members own children) = (own.toList.map fun _ => colorKey) ++ children.keys := by
  rw [← Entries.keys_mapValues toJson children, members, Entries.keys, List.map_append,
    List.map_map]
  rfl

theorem nodup_keys_members (own : Option Color) (distinct : children.keys.Nodup)
    (reserved : colorKey ∉ children.keys) : (Entries.keys (members own children)).Nodup := by
  rw [keys_members]
  cases own with
  | none => exact distinct
  | some color => exact List.nodup_cons.2 ⟨reserved, distinct⟩

theorem ownColor?_members (reserved : colorKey ∉ children.keys) :
    ownColor? (members own children) = some own := by
  unfold ownColor?
  cases own with
  | some color =>
    have hfound : Entries.get? colorKey (members (some color) children) = some color.toJson := by
      rw [members]
      exact if_pos rfl
    rw [hfound]
    show (Color.ofHex? color.hex).map some = _
    rw [Color.ofHex?_hex, Option.map_some]
  | none =>
    have hnone : Entries.get? colorKey (members none children) = none := by
      refine Entries.get?_eq_none ?_
      rw [keys_members]
      exact reserved
    rw [hnone]

/-- All members but the own color are those of the children. -/
theorem filter_members (reserved : colorKey ∉ children.keys) :
    (members own children).filter (fun m => m.1 ≠ colorKey) =
      children.mapValues toJson := by
  have hchildren : ∀ m ∈ children.mapValues toJson, m.1 ≠ colorKey := by
    intro m hm hkey
    obtain ⟨c, hc, rfl⟩ := List.mem_map.1 hm
    exact reserved (List.mem_map.2 ⟨c, hc, hkey⟩)
  have hfilter : (children.mapValues toJson).filter (fun m => m.1 ≠ colorKey) =
      children.mapValues toJson :=
    List.filter_eq_self.2 fun m hm => decide_eq_true (hchildren m hm)
  rw [members, List.filter_append, hfilter]
  cases own with
  | none => rfl
  | some color => rfl

/-- **A tree is read back from its value.** -/
theorem exists_ofJson? {n : Node} (h : n.WellNamed) :
    ∃ m, ofJson? n.toJson = some m ∧ Same n m := by
  induction h with
  | @mk own children distinct reserved below ih =>
    by_cases hleaf : own = none ∨ children ≠ []
    · have hkeys := nodup_keys_members own distinct reserved
      have hperm := Json.sortMembers_perm hkeys
      have hown : ownColor? (Json.sortMembers (members own children)) = some own := by
        unfold ownColor?
        rw [Entries.get?_of_perm hperm hkeys]
        exact ownColor?_members reserved
      have hfilter := hperm.filter fun m => m.1 ≠ colorKey
      rw [filter_members reserved] at hfilter
      obtain ⟨others, hothers, hmatches⟩ := Json.exists_valuesOf? hfilter ih
      refine ⟨⟨own, others⟩, ?_, .mk hmatches⟩
      rw [toJson_eq hleaf, ofJson?, hown, Option.bind_some, childrenOf?_eq, hothers,
        Option.map_some]
    · rw [not_or, not_not] at hleaf
      obtain ⟨hown, rfl⟩ := hleaf
      obtain ⟨color, rfl⟩ := Option.ne_none_iff_exists'.1 hown
      refine ⟨leaf color, ?_, .mk .nil⟩
      rw [toJson, Color.toJson, ofJson?, Color.ofHex?_hex, Option.map_some]

end Node

/-! ## Themes -/

/-- The style of an object. -/
def Style.ofJson? : Json → Option Style
  | .object members =>
    ((Entries.get? "color" members).bind Color.ofJson?).bind fun color =>
      let flag (f : StyleFlag) : Option Bool := (Entries.get? f.name members).bind Json.truth?
      (flag .bold).bind fun bold => (flag .italic).bind fun italic =>
        (flag .underline).map fun underline => ⟨color, bold, italic, underline⟩
  | _ => none

namespace Theme

/-- The theme of a document.  Where no styles are told of, there are none. -/
def ofJson? : Json → Option Theme
  | .object members =>
    let notes := (Entries.get? metaName members).bind (Json.entries? Json.text?)
    let styles :=
      match Entries.get? stylesKey members with
      | none => some []
      | some value => value.entries? Style.ofJson?
    let scopes := Json.valuesOf? Node.ofJson?
      (members.filter fun m => m.1 ≠ metaName ∧ m.1 ≠ stylesKey)
    notes.bind fun notes => scopes.bind fun scopes => styles.map fun styles =>
      ⟨notes, scopes, styles⟩
  | _ => none

/-- The themes differ in nothing but the order of notes, of blocks, of styles and of children. -/
structure Same (theme read : Theme) : Prop where
  notes : read.notes.Perm theme.notes
  scopes : theme.scopes.Matches Node.Same read.scopes
  styles : read.styles.Perm theme.styles

end Theme

theorem Style.ofJson?_toJson (style : Style) : ofJson? style.toJson = some style := by
  obtain ⟨color, bold, italic, underline⟩ := style
  have hkeys : (Entries.keys [("color", color.toJson), (StyleFlag.bold.name, .truth bold),
      (StyleFlag.italic.name, .truth italic),
      (StyleFlag.underline.name, .truth underline)]).Nodup := by
    show ["color", "bold", "italic", "underline"].Nodup
    decide
  have hget := Entries.get?_of_perm (Json.sortMembers_perm hkeys) hkeys
  have hcolor : Color.ofJson? color.toJson = some color := Color.ofHex?_hex color
  rw [toJson, Json.ofMembers, ofJson?]
  simp only [hget]
  simp [Entries.get?, hcolor, StyleFlag.name, Json.truth?]

namespace Json

variable {α : Type}

/-- An object that is made of entries is read back from its value. -/
theorem exists_entries? (read : Json → Option α) (written : α → Json) {es : Entries String α}
    (hkeys : es.keys.Nodup) (h : ∀ a, read (written a) = some a) :
    ∃ fs, entries? read (ofMembers (es.mapValues written)) = some fs ∧
      fs.Perm es := by
  rw [← Entries.keys_mapValues written es] at hkeys
  have hperm := sortMembers_perm hkeys
  obtain ⟨fs, hfs, hmatches⟩ :=
    exists_valuesOf? (R := Eq) hperm fun e _ => ⟨e.2, h e.2, rfl⟩
  exact ⟨fs, hfs, hmatches.perm_of_eq⟩

end Json

namespace Theme

/-- The member for the styles, if there are any. -/
def stylesMember (styles : Entries String Style) : List (String × Json) :=
  if styles.isEmpty then [] else [(stylesKey, .ofMembers (styles.mapValues Style.toJson))]

/-- The members of a theme as they are put together. -/
def members (theme : Theme) : List (String × Json) :=
  (metaName, .ofMembers (theme.notes.mapValues Json.text)) ::
    (theme.scopes.mapValues Node.toJson) ++ stylesMember theme.styles

theorem toJson_eq (theme : Theme) : theme.toJson = .object (Json.sortMembers theme.members) := rfl

variable {theme : Theme}

theorem mem_stylesMember {styles : Entries String Style} {m : String × Json}
    (h : m ∈ stylesMember styles) : m.1 = stylesKey := by
  unfold stylesMember at h
  split at h
  · cases h
  · rw [List.mem_singleton.1 h]

theorem nodup_keys_members (h : theme.WellNamed) : (Entries.keys theme.members).Nodup := by
  have hstyles : ∀ key ∈ Entries.keys (stylesMember theme.styles), key = stylesKey := by
    intro key hkey
    obtain ⟨m, hm, rfl⟩ := List.mem_map.1 hkey
    exact mem_stylesMember hm
  have hone : (Entries.keys (stylesMember theme.styles)).Nodup := by
    unfold stylesMember
    split
    · exact List.nodup_nil
    · exact List.nodup_singleton _
  have hkeys : Entries.keys theme.members =
      metaName :: theme.scopes.keys ++ Entries.keys (stylesMember theme.styles) := by
    rw [members, Entries.keys, List.map_append, List.map_cons]
    congr 2
    exact Entries.keys_mapValues Node.toJson theme.scopes
  rw [hkeys, List.nodup_append]
  refine ⟨List.nodup_cons.2 ⟨h.noMeta, h.scopes⟩, hone, fun key hkey other hother heq => ?_⟩
  rw [hstyles other hother] at heq
  rcases List.mem_cons.1 hkey with rfl | hkey
  · exact absurd heq (by decide)
  · exact h.noStyles (heq ▸ hkey)

/-- What is neither `meta` nor `styles` is a block. -/
theorem filter_members (h : theme.WellNamed) :
    theme.members.filter (fun m => m.1 ≠ metaName ∧ m.1 ≠ stylesKey) =
      theme.scopes.mapValues Node.toJson := by
  have hscopes : (theme.scopes.mapValues Node.toJson).filter
      (fun m => m.1 ≠ metaName ∧ m.1 ≠ stylesKey) =
        theme.scopes.mapValues Node.toJson := by
    refine List.filter_eq_self.2 fun m hm => ?_
    obtain ⟨e, he, rfl⟩ := List.mem_map.1 hm
    have hkey : e.1 ∈ theme.scopes.keys := List.mem_map_of_mem he
    refine decide_eq_true ⟨fun heq => h.noMeta ?_, fun heq => h.noStyles ?_⟩
    · rwa [← heq]
    · rwa [← heq]
  have hstyles : (stylesMember theme.styles).filter
      (fun m => m.1 ≠ metaName ∧ m.1 ≠ stylesKey) = [] := by
    refine List.filter_eq_nil_iff.2 fun m hm => ?_
    simp [mem_stylesMember hm]
  rw [members, List.filter_append, List.filter_cons_of_neg (by simp), hscopes, hstyles,
    List.append_nil]

/-- The styles are found under their key; where there are none, nothing is. -/
theorem exists_styles (h : theme.WellNamed) {ms : List (String × Json)}
    (hperm : ms.Perm theme.members) :
    ∃ styles, (match Entries.get? stylesKey ms with
      | none => some []
      | some value => value.entries? Style.ofJson?) = some styles ∧ styles.Perm theme.styles := by
  have hkeys := nodup_keys_members h
  rw [Entries.get?_of_perm hperm hkeys]
  by_cases hempty : theme.styles.isEmpty = true
  · have hnone : Entries.get? stylesKey theme.members = none := by
      refine Entries.get?_eq_none fun hmem => ?_
      obtain ⟨m, hm, hkey⟩ := List.mem_map.1 hmem
      rw [members, stylesMember, if_pos hempty, List.append_nil] at hm
      rcases List.mem_cons.1 hm with rfl | hm
      · exact absurd hkey (show metaName ≠ stylesKey by decide)
      · obtain ⟨e, he, rfl⟩ := List.mem_map.1 hm
        exact h.noStyles (List.mem_map.2 ⟨e, he, hkey⟩)
    rw [hnone, List.isEmpty_iff.1 hempty]
    exact ⟨[], rfl, .nil⟩
  · have hfound : Entries.get? stylesKey theme.members =
        some (.ofMembers (theme.styles.mapValues Style.toJson)) := by
      rw [Entries.get?_eq_some_iff hkeys, members, stylesMember, if_neg hempty]
      exact List.mem_append_right _ (List.mem_singleton_self _)
    rw [hfound]
    exact Json.exists_entries? Style.ofJson? Style.toJson h.styles Style.ofJson?_toJson

/-- **A theme is read back from its value**, if its names can be told apart. -/
theorem exists_ofJson? (h : theme.WellNamed) :
    ∃ read, ofJson? theme.toJson = some read ∧ theme.Same read := by
  have hkeys := nodup_keys_members h
  have hperm := Json.sortMembers_perm hkeys
  obtain ⟨notes, hnotes, hnotesPerm⟩ :=
    Json.exists_entries? Json.text? Json.text h.notes fun _ => rfl
  obtain ⟨styles, hstyles, hstylesPerm⟩ := exists_styles h hperm
  have hfilter := hperm.filter fun m => m.1 ≠ metaName ∧ m.1 ≠ stylesKey
  rw [filter_members h] at hfilter
  obtain ⟨scopes, hscopes, hmatches⟩ := Json.exists_valuesOf? hfilter fun scope hscope =>
    Node.exists_ofJson? (h.trees scope hscope)
  have hmeta : Entries.get? metaName (Json.sortMembers theme.members) =
      some (.ofMembers (theme.notes.mapValues Json.text)) := by
    rw [Entries.get?_of_perm hperm hkeys]
    exact if_pos rfl
  refine ⟨⟨notes, scopes, styles⟩, ?_, ⟨hnotesPerm, hmatches, hstylesPerm⟩⟩
  rw [toJson_eq, ofJson?, hmeta, Option.bind_some, hnotes, hscopes, hstyles]
  rfl

/-- **The JSON rendering loses nothing.**  The rendering of a theme that is settled is one JSON
document in front of a line feed, and the theme that is read from it has the same notes, the same
trees for its blocks and the same styles, in whatever order. -/
theorem exists_read_of_settled {strictAnsi : Bool} {source : String} {theme : Theme}
    (h : ofAnalysis strictAnsi (Analysis.ofSource .standard source) = .ok theme) :
    ∃ document json read, Target.json.render theme = document ++ "\n" ∧
      Json.read? document = some json ∧ ofJson? json = some read ∧ theme.Same read := by
  obtain ⟨read, hread, hsame⟩ := exists_ofJson? (wellNamed_of_ofAnalysis h)
  refine ⟨String.ofList (theme.toJson.write 0), theme.toJson, read, ?_, ?_, hread, hsame⟩
  · show Json.document theme.toJson = _
    rw [Json.document, String.ofList_append]
  · exact Json.read?_write theme.toJson 0

/-- A document with a note that has to be escaped, a group with a color of its own, and a style. -/
def annotatedSource : String :=
  "meta \x7b\n  name = \"the \\\"pine\\\" one\"\n\x7d\n" ++
  "palette \x7b\n  pine \x7b\n    color = #31748f\n    deep = #224f62\n  \x7d\n\x7d\n" ++
  "syntax \x7b\n  word \x7b\n    color = palette.pine\n    bold = true\n  \x7d\n\x7d\n"

theorem exists_read_of_settled_annotatedSource :
    ∃ theme, ofAnalysis false (Analysis.ofSource .standard annotatedSource) = .ok theme ∧
      theme.notes = [("name", "the \"pine\" one")] ∧
      theme.styles = [("word", ⟨⟨0x31, 0x74, 0x8f⟩, true, false, false⟩)] ∧
      ∃ document json read, Target.json.render theme = document ++ "\n" ∧
        Json.read? document = some json ∧ ofJson? json = some read ∧ theme.Same read := by
  have hanalysis : (Analysis.ofSource .standard annotatedSource).hasErrors = false ∧
      (Analysis.ofSource .standard annotatedSource).notes = [("name", "the \"pine\" one")] ∧
      (Analysis.ofSource .standard annotatedSource).styles =
        [("word", ⟨⟨0x31, 0x74, 0x8f⟩, true, false, false⟩)] := by
    decide +kernel
  obtain ⟨herrors, hnotes, hstyles⟩ := hanalysis
  have hsettled : ofAnalysis false (Analysis.ofSource .standard annotatedSource) =
      .ok ⟨(Analysis.ofSource .standard annotatedSource).notes,
        (Analysis.ofSource .standard annotatedSource).scopes,
        (Analysis.ofSource .standard annotatedSource).styles⟩ := by
    rw [ofAnalysis, herrors]
    rfl
  exact ⟨_, hsettled, hnotes, hstyles, exists_read_of_settled hsettled⟩

end Theme

end ColorTheme

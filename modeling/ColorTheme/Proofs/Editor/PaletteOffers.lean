import ColorTheme.Editor.Completion
import ColorTheme.Proofs.Account.Shape
import ColorTheme.Proofs.Editor.Clamping
import ColorTheme.Proofs.Editor.CursorPath
import ColorTheme.Proofs.Editor.OpenBlocks
import ColorTheme.Proofs.Theme.Listed

/-!
# What is offered behind a path into the palette

Behind a dotted path into the palette an editor is offered names to go on with.  They are those that
a reference can go on with.

* `Document.Types` : a path into the palette is being typed at a position.
* `Node.exists_valueFrom_iff` : a reference has a value where its path leads to a node, but for the
  name of own colors at its end.
* `Analysis.suggestions_of_types` : what is offered are the children of the node of the path.
* `Analysis.Accepted` : the paths that come about when one offered name after the other is accepted.
* `Analysis.offers_palette` : what is offered is what references can go on with, and so all colors
  of the palette are reached by accepting names, and nothing else.
-/

set_option autoImplicit false

namespace ColorTheme

/-! ## Paths that are being typed -/

/-- The parts of a path into the palette, of which the last one is being typed. -/
def typedParts (segments : List String) (typing : List Char) : List (List Char) :=
  paletteName.toList :: segments.map String.toList ++ [typing]

/-- On the line of the position, the text before the cursor ends in a path into the palette: the
name of the palette, the given segments, and what is there of one more, with dots between them.
It is the whole path: there is no path character in front of it. -/
def Document.Types (d : Document) (p : Position) (segments : List String) : Prop :=
  ∃ line front typing, d.line? p.line = some line ∧
    line.take p.character = front ++ joinFields '.' (typedParts segments typing) ∧
    (∀ c, front.getLast? = some c → isPathChar c = false) ∧
    (∀ segment ∈ segments, ∀ c ∈ segment.toList, isWordChar c = true) ∧
    ∀ c ∈ typing, isWordChar c = true

variable {d : Document} {p : Position} {segments : List String} {typing : List Char}

theorem isWordChar_of_mem_typedParts
    (hsegments : ∀ segment ∈ segments, ∀ c ∈ segment.toList, isWordChar c = true)
    (htyping : ∀ c ∈ typing, isWordChar c = true) :
    ∀ part ∈ typedParts segments typing, ∀ c ∈ part, isWordChar c = true := by
  intro part hpart
  unfold typedParts at hpart
  rw [List.mem_append, List.mem_cons, List.mem_map, List.mem_singleton] at hpart
  obtain (rfl | ⟨segment, hsegment, rfl⟩) | rfl := hpart
  · exact List.all_eq_true.1 (by decide)
  · exact hsegments segment hsegment
  · exact htyping

/-- Nothing but path characters stands in words with dots between them. -/
theorem isPathChar_of_mem_typed {parts : List (List Char)}
    (hparts : ∀ part ∈ parts, ∀ c ∈ part, isWordChar c = true) :
    ∀ c ∈ joinFields '.' parts, isPathChar c = true := by
  intro c hc
  rcases mem_joinFields hc with rfl | ⟨part, hpart, hc⟩
  · rfl
  · rw [isPathChar, hparts part hpart c hc, Bool.true_or]

/-- The segments of a path that is being typed are found. -/
theorem palettePath?_typed {front : List Char}
    (hfront : ∀ c, front.getLast? = some c → isPathChar c = false)
    (hparts : ∀ part ∈ typedParts segments typing, ∀ c ∈ part, isWordChar c = true) :
    palettePath? (front ++ joinFields '.' (typedParts segments typing)) =
      some (segments.map String.toList) := by
  have hdots : ∀ part ∈ typedParts segments typing, '.' ∉ part := by
    intro part hpart hdot
    have hword := hparts part hpart '.' hdot
    revert hword
    decide
  have hpath : ∀ c ∈ (joinFields '.' (typedParts segments typing)).reverse,
      isPathChar c = true := by
    intro c hc
    exact isPathChar_of_mem_typed hparts c (List.mem_reverse.1 hc)
  have htaken : ((front ++ joinFields '.' (typedParts segments typing)).reverse.takeWhile
      isPathChar).reverse = joinFields '.' (typedParts segments typing) := by
    rw [List.reverse_append, takeWhile_run hpath (by simpa using hfront), List.reverse_reverse]
  obtain ⟨second, rest, hrest⟩ : ∃ second rest,
      segments.map String.toList ++ [typing] = second :: rest := by
    refine List.exists_cons_of_ne_nil ?_
    simp
  have hfields : fields '.' (joinFields '.' (typedParts segments typing)) =
      paletteName.toList :: second :: rest := by
    rw [fields_joinFields (by simp [typedParts]) hdots, typedParts, List.cons_append, hrest]
  unfold palettePath?
  dsimp only
  rw [htaken, hfields]
  dsimp only
  rw [if_pos rfl, ← hrest, List.dropLast_concat]

/-- Path characters end no lines. -/
theorem not_isLineBreak_of_isPathChar {c : Char} (h : isPathChar c = true) :
    isLineBreak c = false := by
  by_contra hbreak
  simp only [isLineBreak, Bool.not_eq_false, Bool.or_eq_true, beq_iff_eq] at hbreak
  revert h
  rcases hbreak with (((((rfl | rfl) | rfl) | rfl) | rfl) | rfl) | rfl <;> decide +kernel

theorem splitLines_unbroken {cs : List Char} (h : Unbroken cs) : splitLines cs = [cs] := by
  induction cs with
  | nil => rfl
  | cons c cs ih =>
    have hrest : Unbroken cs := fun d hd => h d (List.mem_cons_of_mem _ hd)
    exact splitLines_of_not_break (h c List.mem_cons_self) (ih hrest)

/-- Each path can be typed, at the end of a document of one line. -/
theorem exists_types (hsegments : ∀ segment ∈ segments, ∀ c ∈ segment.toList,
    isWordChar c = true) : ∃ d p, Document.Types d p segments := by
  have hunbroken : Unbroken (joinFields '.' (typedParts segments [])) := by
    intro c hc
    apply not_isLineBreak_of_isPathChar
    exact isPathChar_of_mem_typed (isWordChar_of_mem_typedParts hsegments (by simp)) c hc
  generalize hline : joinFields '.' (typedParts segments []) = line at hunbroken
  have hlines : (Document.lines ⟨0, String.ofList line⟩)[0]? = some (line ++ []) := by
    unfold Document.lines Document.chars
    rw [String.toList_ofList, splitLines_unbroken hunbroken, List.append_nil]
    rfl
  refine ⟨⟨0, String.ofList line⟩, ⟨0, line.length⟩, line, [], [], ?_, ?_, by simp, hsegments,
    by simp⟩
  · exact Document.line?_append (p := ⟨0, 0⟩) hlines hunbroken (by simp)
  · rw [List.take_length, List.nil_append, hline]

/-! ## References -/

theorem Entries.isSome_get?_iff {κ α : Type} [DecidableEq κ] {key : κ} {entries : Entries κ α} :
    (entries.get? key).isSome ↔ key ∈ entries.keys := by
  induction entries with
  | nil => simp [Entries.keys]
  | cons first rest ih =>
    rw [Entries.get?, Entries.keys, List.map_cons, List.mem_cons]
    split
    · rename_i hkey
      simp [hkey]
    · rename_i hkey
      rw [ih, Entries.keys]
      simp [Ne.symm hkey]

namespace Node

variable {n m : Node} {name : String} {path walked : List String}

/-- **A reference has a value where its path leads to a node**, if its last name is not the one for
own colors. -/
theorem exists_valueFrom_iff (n : Node) (walked front : List String) (hname : name ≠ colorKey) :
    (∃ v, n.valueFrom walked (front ++ [name]) = .ok v) ↔ (n.get? (front ++ [name])).isSome := by
  induction front generalizing n walked with
  | nil =>
    rw [List.nil_append, valueFrom, get?_cons]
    cases n.child? name with
    | none => cases n.color <;> simp [hname]; split <;> simp
    | some child => simp [valueFrom]
  | cons first front ih =>
    rw [List.cons_append, valueFrom, get?_cons]
    cases n.child? first with
    | none => cases n.color <;> simp; split <;> simp
    | some child => exact ih child (walked ++ [first])

theorem isSome_get?_concat_iff {front : List String} :
    (n.get? (front ++ [name])).isSome ↔ name ∈ n.childNames front := by
  rw [get?_concat, childNames]
  cases n.get? front with
  | none => simp [blank, children, Entries.keys]
  | some m => exact Entries.isSome_get?_iff

end Node

namespace Analysis

variable {a : Analysis} {palette n : Node} {scopes : Scopes} {e : Expr} {name : String}

theorem evaluate_of_path? (hscope : scopes.get? paletteName = some palette)
    (he : e.path? = some (paletteName :: segments)) :
    evaluate scopes e = palette.valueFrom [paletteName] segments := by
  cases e with
  | path root rest span =>
    obtain ⟨hroot, hrest⟩ := List.cons.inj (Option.some.inj he)
    rw [evaluate, Scopes.follow, hroot, hscope, hrest]
  | quoted | hex | number | truth | call => cases he

/-- A reference has a value where it goes on with the name of a child. -/
theorem exists_evaluate_iff (hscope : scopes.get? paletteName = some palette)
    (he : e.path? = some (paletteName :: (segments ++ [name]))) (hname : name ≠ colorKey) :
    (∃ v, evaluate scopes e = .ok v) ↔ name ∈ palette.childNames segments := by
  rw [evaluate_of_path? hscope he, palette.exists_valueFrom_iff _ _ hname,
    Node.isSome_get?_concat_iff]

/-- It resolves to the own color of the child. -/
theorem resolve_eq_ok_iff (hscope : scopes.get? paletteName = some palette)
    (he : e.path? = some (paletteName :: (segments ++ [name]))) (hname : name ≠ colorKey)
    {c : Color} : scopes.resolve e = .ok c ↔ palette.colorAt (segments ++ [name]) = some c := by
  rw [Scopes.resolve, evaluate_of_path? hscope he, Node.color_valueFrom]
  apply or_iff_left
  rintro ⟨front, hlast, -, -⟩
  exact hname (List.cons.inj (List.append_inj' hlast rfl).2).1

/-- **What is offered behind a path are the children of its node**, but none called `color`. -/
theorem suggestions_of_types {table : BlockTable} (hpalette : a.scope? paletteName = some palette)
    (ht : d.Types p segments) :
    suggestions table d a p = (((palette.get? segments).getD .blank).children.filter fun child =>
      child.1 != colorKey).map fun child => .ofChild child.1 child.2 := by
  obtain ⟨line, front, typing, hline, hbefore, hfront, hsegments, htyping⟩ := ht
  obtain ⟨index, hindex⟩ : ∃ index, d.charIndex? p = some index := by
    obtain ⟨whole, hwhole, -⟩ := Option.map_eq_some_iff.1 hline
    unfold Document.charIndex?
    rw [hwhole]
    exact ⟨_, rfl⟩
  have hfound := palettePath?_typed hfront (isWordChar_of_mem_typedParts hsegments htyping)
  have hnames : (segments.map String.toList).map String.ofList = segments := by
    simp [Function.comp_def]
  unfold suggestions
  rw [hline, hindex]
  dsimp only
  rw [hbefore, hfound]
  dsimp only
  unfold paletteSuggestions
  rw [hpalette, Option.bind_some, hnames]
  cases palette.get? segments with
  | none => rfl
  | some n => rfl

theorem label_ofChild (name : String) (child : Node) :
    (Suggestion.ofChild name child).label = name := by
  unfold Suggestion.ofChild
  dsimp only
  split <;> rfl

/-- The names that are offered, in their order. -/
theorem labels_of_types {table : BlockTable} (hpalette : a.scope? paletteName = some palette)
    (ht : d.Types p segments) :
    (suggestions table d a p).map Suggestion.label =
      (palette.childNames segments).filter (· != colorKey) := by
  have hlabel : Suggestion.label ∘ (fun child : String × Node => .ofChild child.1 child.2) =
      Prod.fst := by
    funext child
    exact label_ofChild child.1 child.2
  rw [suggestions_of_types hpalette ht, List.map_map, hlabel, Node.childNames, Entries.keys,
    List.filter_map]
  rfl

/-! ## What is shown with a name -/

end Analysis

/-- The suggestion shows the color: as it is, or as that of a group. -/
def Suggestion.Shows (s : Suggestion) (c : Color) : Prop :=
  s.detail = some c.hex ∨ s.detail = some ("group (" ++ c.hex ++ ")") ∨
    s.documentation = some c.hex

/-- A child is shown with its own color. -/
theorem Suggestion.shows_ofChild_iff {name : String} {child : Node} {c : Color} :
    (Suggestion.ofChild name child).Shows c ↔ child.color = some c := by
  have hhead (c : Color) (text : List Char) : c.hex.toList ≠ 'g' :: text := by
    simp [Color.hex]
  have hgroup (c d : Color) : "group (" ++ c.hex ++ ")" ≠ d.hex := by
    intro h
    refine hhead d ("roup (".toList ++ c.hex.toList ++ [')']) ?_
    rw [← h]
    simp
  have hplain (c : Color) : "group" ≠ c.hex := by
    intro h
    exact hhead c "roup".toList (congrArg String.toList h).symm
  have hopen (c : Color) : "group" ≠ "group (" ++ c.hex ++ ")" := by
    intro h
    have hlists := congrArg String.toList h
    simp at hlists
  have hinj (c d : Color) : "group (" ++ c.hex ++ ")" = "group (" ++ d.hex ++ ")" ↔ c = d := by
    rw [String.append_left_inj, String.append_right_inj]
    exact ⟨hex_inj, congrArg Color.hex⟩
  have hhex (c d : Color) : c.hex = d.hex ↔ c = d := ⟨hex_inj, congrArg Color.hex⟩
  unfold Shows ofChild
  dsimp only
  cases hcolor : child.color with
  | none =>
    have hshape : child.shape ≠ .leaf := by simp [Node.shape_eq_leaf_iff, hcolor]
    rw [if_neg hshape]
    simp [hplain, hopen]
  | some own =>
    split
    · simp [hhex, (hgroup _ _).symm]
    · simp [hgroup, hinj]

namespace Analysis

variable {a : Analysis} {palette n : Node} {scopes : Scopes} {e : Expr} {name : String}
  {path : List String}

/-- **A name is offered if and only if the reference that goes on with it has a value.** -/
theorem mem_labels_iff {table : BlockTable} (hpalette : a.scope? paletteName = some palette)
    (ht : d.Types p segments) (hscope : scopes.get? paletteName = some palette)
    (he : e.path? = some (paletteName :: (segments ++ [name]))) :
    name ∈ (suggestions table d a p).map Suggestion.label ↔
      name ≠ colorKey ∧ ∃ v, evaluate scopes e = .ok v := by
  rw [labels_of_types hpalette ht, List.mem_filter, bne_iff_ne, and_comm]
  constructor
  · rintro ⟨hname, hmem⟩
    exact ⟨hname, (exists_evaluate_iff hscope he hname).2 hmem⟩
  · rintro ⟨hname, hvalue⟩
    exact ⟨hname, (exists_evaluate_iff hscope he hname).1 hvalue⟩

/-- **A color is shown with a name if and only if the reference resolves to it**, where the names of
each node are distinct. -/
theorem shows_iff_resolve {table : BlockTable} {block : String} {visits : List Visit}
    (hwell : palette.WellShaped block visits) (hpalette : a.scope? paletteName = some palette)
    (ht : d.Types p segments) (hscope : scopes.get? paletteName = some palette) {s : Suggestion}
    (hs : s ∈ suggestions table d a p)
    (he : e.path? = some (paletteName :: (segments ++ [s.label]))) {c : Color} :
    s.Shows c ↔ scopes.resolve e = .ok c := by
  rw [suggestions_of_types hpalette ht] at hs
  obtain ⟨⟨name, child⟩, hchild, rfl⟩ := List.mem_map.1 hs
  obtain ⟨hmem, hname⟩ := List.mem_filter.1 hchild
  rw [label_ofChild] at he
  rw [Suggestion.shows_ofChild_iff, resolve_eq_ok_iff hscope he (bne_iff_ne.1 hname),
    Node.colorAt, Node.get?_concat]
  cases hn : palette.get? segments with
  | none =>
    rw [hn] at hmem
    cases hmem
  | some n =>
    rw [hn] at hmem
    have hfound : n.child? name = some child :=
      (Entries.get?_eq_some_iff (hwell.distinct segments n hn)).2 hmem
    rw [Option.bind_some, hfound, Option.bind_some]

/-! ## Accepting names -/

/-- The paths that come about when one name after the other is accepted that is offered behind the
path so far, in any document in which this path is being typed. -/
inductive Accepted (a : Analysis) : List String → Prop
  | start : Accepted a []
  | accept {path : List String} {d : Document} {p : Position} {s : Suggestion}
      (before : Accepted a path) (typed : d.Types p path)
      (offered : s ∈ suggestions .standard d a p) : Accepted a (path ++ [s.label])

/-- The names along a path of a tree can be typed. -/
theorem isWordChar_of_get? {block : String} {visits : List Visit}
    (h : palette.WellShaped block visits) (hn : palette.get? path = some n) :
    ∀ name ∈ path, ∀ c ∈ name.toList, isWordChar c = true := by
  induction path using List.reverseRecOn generalizing n with
  | nil => simp
  | append_singleton front last ih =>
    rw [Node.get?_concat] at hn
    obtain ⟨m, hm, hlast⟩ := Option.bind_eq_some_iff.1 hn
    have hmem := (Entries.get?_eq_some_iff (h.distinct front m hm)).1 hlast
    have hident := (h.names front m hm last (List.mem_map_of_mem hmem)).1
    intro name hname
    rcases List.mem_append.1 hname with hname | hname
    · exact ih hm name hname
    · rw [List.mem_singleton.1 hname]
      exact isWordChar_of_ident hident

/-- **Every node below the root is reached**, by accepting one name after the other. -/
theorem accepted_of_get? {block : String} {visits : List Visit}
    (h : palette.WellShaped block visits) (hpalette : a.scope? paletteName = some palette)
    (hn : palette.get? path = some n) : a.Accepted path := by
  induction path using List.reverseRecOn generalizing n with
  | nil => exact .start
  | append_singleton front last ih =>
    rw [Node.get?_concat] at hn
    obtain ⟨m, hm, hlast⟩ := Option.bind_eq_some_iff.1 hn
    have hmem := (Entries.get?_eq_some_iff (h.distinct front m hm)).1 hlast
    have hname := (h.names front m hm last (List.mem_map_of_mem hmem)).2.2
    obtain ⟨d, p, ht⟩ := exists_types (isWordChar_of_get? h hm)
    have hlabel : last ∈ (suggestions .standard d a p).map Suggestion.label := by
      rw [labels_of_types hpalette ht, Node.childNames_of_get? hm]
      exact List.mem_filter.2 ⟨List.mem_map_of_mem hmem, by simpa using hname⟩
    obtain ⟨s, hs, rfl⟩ := List.mem_map.1 hlabel
    exact .accept (ih hm) ht hs

/-! ## What is offered in a palette -/

/-- What is offered behind paths into the palette, beside the references of an expression, where
these see the palette. -/
structure OffersPalette (a : Analysis) (palette : Node) : Prop where
  /-- A name is offered if and only if the reference that goes on with it has a value. -/
  exact : ∀ d p segments, d.Types p segments → ∀ scopes : Scopes,
    scopes.get? paletteName = some palette →
    ∀ e name, e.path? = some (paletteName :: (segments ++ [name])) →
      (name ∈ (suggestions .standard d a p).map Suggestion.label ↔
        name ≠ colorKey ∧ ∃ v, evaluate scopes e = .ok v)
  /-- Each name is offered once, and they stand in the order of the tree. -/
  order : ∀ d p segments, d.Types p segments →
    ((suggestions .standard d a p).map Suggestion.label).Nodup ∧
      ((suggestions .standard d a p).map Suggestion.label).Sublist (palette.childNames segments)
  /-- A color is shown with a name if and only if the reference resolves to it. -/
  shown : ∀ d p segments, d.Types p segments → ∀ scopes : Scopes,
    scopes.get? paletteName = some palette → ∀ s ∈ suggestions .standard d a p,
    ∀ e, e.path? = some (paletteName :: (segments ++ [s.label])) → ∀ c,
      (s.Shows c ↔ scopes.resolve e = .ok c)
  /-- Each color below the root is reached by accepting one name after the other. -/
  reached : ∀ path c, path ≠ [] → palette.colorAt path = some c → a.Accepted path
  /-- No reference that comes about so is unknown. -/
  known : ∀ path, a.Accepted path → path ≠ [] → ∀ scopes : Scopes,
    scopes.get? paletteName = some palette →
    ∀ e, e.path? = some (paletteName :: path) → ∃ v, evaluate scopes e = .ok v

/-- **What is offered behind a path into the palette is what a reference can go on with.** -/
theorem offers_palette {source : String}
    (h : (ofSource .standard source).scope? paletteName = some palette) :
    (ofSource .standard source).OffersPalette palette := by
  have hwell : palette.WellShaped paletteName (visits .standard (Body.read source).items) := by
    obtain ⟨c, hc, hname, rfl⟩ := (get?_scopes (by decide) paletteName palette).1 h
    have htree := wellShaped_tree hc
    rwa [hname] at htree
  constructor
  case exact =>
    intro d p segments ht scopes hscope e name he
    exact mem_labels_iff h ht hscope he
  case order =>
    intro d p segments ht
    rw [labels_of_types h ht]
    refine ⟨List.Nodup.filter _ ?_, List.filter_sublist⟩
    unfold Node.childNames
    cases hn : palette.get? segments with
    | none => exact List.nodup_nil
    | some n => exact hwell.distinct segments n hn
  case shown =>
    intro d p segments ht scopes hscope s hs e he c
    exact shows_iff_resolve hwell h ht hscope hs he
  case reached =>
    intro path c hpath hcolor
    obtain ⟨n, hn, -⟩ := Option.bind_eq_some_iff.1 hcolor
    exact accepted_of_get? hwell h hn
  case known =>
    intro path haccepted hpath scopes hscope e he
    cases haccepted with
    | start => exact absurd rfl hpath
    | accept before typed offered =>
      have hmem := List.mem_map_of_mem (f := Suggestion.label) offered
      exact ((mem_labels_iff h typed hscope he).1 hmem).2

/-- A palette of a color, a group and a color with another one below it. -/
def deepSource : String :=
  "palette \x7b\n  sky = #112233\n  sea \x7b\n    reef \x7b\n      low = #445566\n    \x7d\n" ++
    "    color = palette.sky\n  \x7d\n\x7d\n"

theorem offers_palette_deepSource : ∃ palette,
    (ofSource .standard deepSource).scope? paletteName = some palette ∧
      palette.childNames ["sea"] = ["reef"] ∧
      (ofSource .standard deepSource).OffersPalette palette := by
  have hsome : ((ofSource .standard deepSource).scope? paletteName).isSome = true := by
    decide +kernel
  have hnames : (((ofSource .standard deepSource).scope? paletteName).getD .blank).childNames
      ["sea"] = ["reef"] := by
    decide +kernel
  obtain ⟨palette, hpalette⟩ := Option.isSome_iff_exists.1 hsome
  rw [hpalette] at hnames
  exact ⟨palette, hpalette, hnames, offers_palette hpalette⟩

end Analysis

end ColorTheme

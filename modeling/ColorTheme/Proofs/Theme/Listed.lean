import ColorTheme.Proofs.Account.Listing
import ColorTheme.Proofs.Color
import ColorTheme.Proofs.Text.Quoted
import ColorTheme.Proofs.Theme.WellNamed

/-!
# Listings read back

A line of a listing is a name, an equals sign between blanks, and what the name stands for.

* `Theme.shown` : the colors that a listing shows, with their flags.
* `noteLine_inj`, `ShownColor.line_inj` : a line tells what it shows, if its name is a dotted path.
* `Theme.Lists`, `Theme.lists_of_ofAnalysis` : the names in the listing of a theme that is settled
  are dotted paths, and no name comes twice.
* `Theme.Unambiguous`, `Theme.unambiguous` : so the listing has one line for each note and each
  color, and tells all of them.
-/

set_option autoImplicit false

namespace ColorTheme

/-- A color as a listing shows it. -/
structure ShownColor where
  block : String
  path : String
  color : Color
  flags : List StyleFlag
deriving Repr, DecidableEq

namespace ShownColor

/-- What the line of a color begins with. -/
def name (e : ShownColor) : String := e.block ++ "." ++ e.path

/-- The line of a color. -/
def line (e : ShownColor) : String := Theme.colorLine e.block e.path e.color e.flags

end ShownColor

/-- What the line of a note begins with. -/
def noteName (key : String) : String := metaName ++ "." ++ key

namespace Theme

/-- The colors that the listing of a theme shows, block by block, with the flags of each. -/
def shown (theme : Theme) : List ShownColor :=
  theme.scopes.flatMap fun (block, tree) => tree.flatten.map fun (path, color) =>
    ⟨block, path, color, ((theme.styleOf? block path).map flagsOf).getD []⟩

/-- The listing has a line for each note, and behind them a line for each color. -/
theorem listing_eq (theme : Theme) : theme.listing =
    theme.notes.map (fun note => noteLine note.1 note.2) ++ theme.shown.map ShownColor.line := by
  rw [listing, shown, List.map_flatMap]
  simp only [List.map_map]
  rfl

end Theme

/-! ## Names -/

/-- What stands before the first blank of a line. -/
def leftSide (line : List Char) : List Char := line.takeWhile (· != ' ')

/-- A name that is the left side of its line: it has no blank in it, nor the end of a line. -/
structure IsLeftSide (name : String) : Prop where
  noBlank : ' ' ∉ name.toList
  noEnd : '\n' ∉ name.toList

theorem leftSide_append {name : String} (h : IsLeftSide name) (right : List Char) :
    leftSide (name.toList ++ " = ".toList ++ right) = name.toList := by
  have hname : ∀ c ∈ name.toList, (c != ' ') = true := by
    intro c hc
    rw [bne_iff_ne]
    rintro rfl
    exact h.noBlank hc
  rw [leftSide, List.append_assoc, List.takeWhile_append_of_pos hname]
  simp

/-- Two lines with the same left side are told apart by what is behind it. -/
theorem line_inj {name other : String} (h : IsLeftSide name) (h' : IsLeftSide other)
    {right right' : List Char}
    (heq : name.toList ++ " = ".toList ++ right = other.toList ++ " = ".toList ++ right') :
    name = other ∧ right = right' := by
  rw [List.append_assoc, List.append_assoc] at heq
  obtain ⟨hname, hright⟩ := eq_of_append_cons h.noBlank h'.noBlank heq
  exact ⟨String.toList_injective hname, List.append_cancel_left hright⟩

/-! ## Lines -/

theorem toList_noteLine (key value : String) : (Theme.noteLine key value).toList =
    (noteName key).toList ++ " = ".toList ++ quote value.toList := by
  simp [Theme.noteLine, noteName]

theorem noteName_injective : Function.Injective noteName := by
  intro key key' h
  have hlists := congrArg String.toList h
  simp only [noteName, String.toList_append] at hlists
  exact String.toList_injective (List.append_cancel_left hlists)

/-- **The line of a note tells the note.** -/
theorem noteLine_inj {key key' value value' : String} (h : IsLeftSide (noteName key))
    (h' : IsLeftSide (noteName key')) (heq : Theme.noteLine key value = Theme.noteLine key' value') :
    key = key' ∧ value = value' := by
  have hlists := congrArg String.toList heq
  rw [toList_noteLine, toList_noteLine] at hlists
  obtain ⟨hname, hvalue⟩ := line_inj h h' hlists
  exact ⟨noteName_injective hname, String.toList_injective (quote_inj hvalue)⟩

/-- The text of a flag behind a color. -/
def flagText (flag : StyleFlag) : List Char := ' ' :: flag.name.toList

theorem separable_flagText : Separable flagText where
  nonempty flag := List.cons_ne_nil _ _
  cut {a b r s} heq := by
    cases a <;> cases b <;> simp_all [flagText, StyleFlag.name]

theorem ShownColor.toList_line (e : ShownColor) : e.line.toList =
    e.name.toList ++ " = ".toList ++ (e.color.hex.toList ++ e.flags.flatMap flagText) := by
  have hflags : (String.join (e.flags.map fun flag => " " ++ flag.name)).toList =
      e.flags.flatMap flagText := by
    rw [String.toList_join, List.flatMap_map]
    exact congrArg (e.flags.flatMap ·) (funext fun flag => String.toList_append)
  simp [ShownColor.line, Theme.colorLine, ShownColor.name, hflags]

theorem length_hex (c : Color) : c.hex.toList.length = 7 := by
  simp [Color.hex, Color.hexDigits, hexByte]

theorem hex_inj {c d : Color} (h : c.hex = d.hex) : c = d := by
  have hread := Color.ofHex?_hex c
  rw [h, Color.ofHex?_hex] at hread
  exact (Option.some.inj hread).symm

/-- The end of a line does not come in the text of a color and its flags. -/
theorem newline_not_mem_color (c : Color) (flags : List StyleFlag) :
    '\n' ∉ c.hex.toList ++ flags.flatMap flagText := by
  have hdigits : '\n' ∉ c.hexDigits :=
    fun hmem => absurd (Color.isHexDigit_of_mem_hexDigits hmem) (by decide)
  have hflag : ∀ flag, '\n' ∉ flagText flag := by
    intro flag
    cases flag <;> decide
  simp [Color.hex, hdigits, hflag]

/-- **The line of a color tells the color**, its path and its flags. -/
theorem ShownColor.line_inj {e e' : ShownColor} (h : IsLeftSide e.name) (h' : IsLeftSide e'.name)
    (hblock : '.' ∉ e.block.toList) (hblock' : '.' ∉ e'.block.toList) (heq : e.line = e'.line) :
    e = e' := by
  have hlists := congrArg String.toList heq
  rw [toList_line, toList_line] at hlists
  obtain ⟨hname, hright⟩ := ColorTheme.line_inj h h' hlists
  obtain ⟨hcolor, hflags⟩ := List.append_inj hright (by rw [length_hex, length_hex])
  have hparts := congrArg String.toList hname
  simp only [name, String.toList_append, List.append_assoc] at hparts
  obtain ⟨hblocks, hpaths⟩ := eq_of_append_cons hblock hblock' hparts
  obtain ⟨block, path, color, flags⟩ := e
  obtain ⟨block', path', color', flags'⟩ := e'
  rw [ShownColor.mk.injEq]
  exact ⟨String.toList_injective hblocks, String.toList_injective hpaths,
    hex_inj (String.toList_injective hcolor), separable_flagText.flatMap_inj hflags⟩

/-! ## Names of a theme -/

/-- The names in the listing of a theme: they can be told apart, and those of notes from those of
colors. -/
structure Theme.Lists (theme : Theme) : Prop where
  notes : ∀ note ∈ theme.notes, IsLeftSide (noteName note.1)
  colors : ∀ e ∈ theme.shown, IsLeftSide e.name
  blocks : ∀ e ∈ theme.shown, '.' ∉ e.block.toList ∧ e.block ≠ metaName
  distinctNotes : (theme.notes.map fun note => noteName note.1).Nodup
  distinctColors : (theme.shown.map ShownColor.name).Nodup

/-- An identifier has no blank in it, nor the end of a line. -/
theorem isLeftSide_of_word {name : String} (h : Lexeme .ident name.toList) : IsLeftSide name where
  noBlank hblank := absurd (h.chars (.inl rfl) _ hblank) (by decide)
  noEnd := h.line (.inl rfl)

theorem IsLeftSide.append {name other : String} (h : IsLeftSide name) (h' : IsLeftSide other) :
    IsLeftSide (name ++ other) where
  noBlank hblank := by
    rw [String.toList_append] at hblank
    exact (List.mem_append.1 hblank).elim h.noBlank h'.noBlank
  noEnd hend := by
    rw [String.toList_append] at hend
    exact (List.mem_append.1 hend).elim h.noEnd h'.noEnd

theorem isLeftSide_dotted {names : List String} (h : ∀ name ∈ names, IsLeftSide name) :
    IsLeftSide (dotted names) := by
  induction names with
  | nil => exact ⟨by decide, by decide⟩
  | cons first rest ih =>
    rw [List.forall_mem_cons] at h
    cases rest with
    | nil =>
      rw [dotted, String.intercalate_singleton]
      exact h.1
    | cons second rest =>
      rw [dotted_cons_cons]
      exact (h.1.append ⟨by decide, by decide⟩).append (ih h.2)

namespace Analysis

variable {table : BlockTable} {body : Body} {flaws : List Flaw} {source : String}

/-- The key of a note is an identifier of the source. -/
theorem isWord_of_note (h : Regular table (Body.read source).items) {key text : String}
    (hnote : (key, text) ∈ (ofBody table (Body.read source).items flaws).notes) :
    Lexeme .ident key.toList := by
  obtain ⟨f, hf, haccepted, hread⟩ := exists_accepted_of_mem_log h.palette Verdict.note?
    (fun _ => rfl) (fun _ _ => rfl) hnote
  unfold Finding.Accepted at haccepted
  have hpath : f.path = [metaName, key] := by
    cases hverdict : f.verdict <;> rw [hverdict] at hread haccepted <;> cases hread
    exact (Prod.mk.inj (Option.some.inj haccepted)).1.symm
  have hwords : ∀ name ∈ f.path, Lexeme .ident name.toList := (within_of_mem_findings h hf).isWord
  rw [hpath] at hwords
  exact hwords key (by simp)

end Analysis

namespace Theme

variable {strictAnsi : Bool} {source : String} {theme : Theme}

/-- The colors that are shown are those of the trees. -/
theorem map_shown (theme : Theme) : theme.shown.map (fun e => (e.name, e.color)) =
    theme.scopes.flatMap fun (block, tree) =>
      tree.flatten.map fun (path, color) => (block ++ "." ++ path, color) := by
  rw [shown, List.map_flatMap]
  simp only [List.map_map]
  rfl

/-- The names of the colors of a settled theme are the paths of nodes, each once. -/
theorem names_of_ofAnalysis
    (h : ofAnalysis strictAnsi (Analysis.ofSource .standard source) = .ok theme) :
    (theme.shown.map ShownColor.name).Nodup ∧ ∀ e ∈ theme.shown,
      ∃ v ∈ Analysis.visits .standard (Body.read source).items, e.name = dotted v.nodePath := by
  have hnames := BlockTable.proper_standard.names
  have hmeta : metaName ∉ BlockTable.standard.map BlockRule.name := by decide
  have hscopes : theme.scopes = (Analysis.ofSource .standard source).scopes := by
    rw [of_ofAnalysis h]
  have hperm : (theme.shown.map fun e => (e.name, e.color)).Perm (shownColors
      ((Analysis.visits .standard (Body.read source).items).filterMap Visit.entry?)) := by
    rw [map_shown, hscopes]
    exact Analysis.perm_listings hnames hmeta source _
  constructor
  · have hdistinct := (hperm.map Prod.fst).nodup_iff.2 (Analysis.nodup_shown hnames hmeta source)
    rwa [List.map_map] at hdistinct
  · intro e he
    have hmem := hperm.subset (List.mem_map_of_mem he)
    obtain ⟨entry, hentry, heq⟩ := List.mem_map.1 hmem
    obtain ⟨v, hv, hcolored⟩ := List.mem_filterMap.1 (List.mem_filter.1 hentry).1
    obtain ⟨location, -, rfl⟩ := Option.map_eq_some_iff.1 hcolored
    exact ⟨v, hv, (Prod.mk.inj heq).1.symm⟩

/-- **The names in the listing of a settled theme can be told apart.** -/
theorem lists_of_ofAnalysis
    (h : ofAnalysis strictAnsi (Analysis.ofSource .standard source) = .ok theme) :
    theme.Lists := by
  have hregular := regular_of_ofAnalysis h
  obtain ⟨hdistinct, hpaths⟩ := names_of_ofAnalysis h
  obtain rfl := of_ofAnalysis h
  constructor
  case notes =>
    rintro ⟨key, text⟩ hnote
    have hword := Analysis.isWord_of_note hregular hnote
    exact IsLeftSide.append ⟨by decide, by decide⟩ (isLeftSide_of_word hword)
  case colors =>
    intro e he
    obtain ⟨v, hv, hname⟩ := hpaths e he
    rw [hname]
    exact isLeftSide_dotted fun name hmem => isLeftSide_of_word
      (Analysis.isWord_of_nodePath hregular.names hregular.noMeta hv name hmem)
  case blocks =>
    intro e he
    obtain ⟨scope, hscope, he⟩ := List.mem_flatMap.1 he
    obtain ⟨entry, -, rfl⟩ := List.mem_map.1 he
    have hblock : scope.1 ∈ BlockTable.standard.map BlockRule.name :=
      Analysis.mem_keys_scopes (List.mem_map_of_mem hscope)
    have hnames : ∀ name ∈ BlockTable.standard.map BlockRule.name,
        '.' ∉ name.toList ∧ name ≠ metaName := by
      decide
    exact hnames scope.1 hblock
  case distinctNotes =>
    have hkeys : ((Analysis.ofSource .standard source).notes.map Prod.fst).Nodup :=
      Analysis.nodup_keys_notes hregular
    have hnames := hkeys.map (f := noteName) noteName_injective
    rwa [List.map_map] at hnames
  case distinctColors => exact hdistinct

end Theme

/-! ## Notes and colors apart -/

/-- The line begins as that of a note: with `meta`, in front of the first dot. -/
def isNoteLine (line : String) : Bool := line.toList.takeWhile (· != '.') == metaName.toList

theorem takeWhile_undotted {first : List Char} (h : '.' ∉ first) (rest : List Char) :
    (first ++ '.' :: rest).takeWhile (· != '.') = first := by
  have hfirst : ∀ c ∈ first, (c != '.') = true := by
    intro c hc
    rw [bne_iff_ne]
    rintro rfl
    exact h hc
  rw [List.takeWhile_append_of_pos hfirst]
  simp

theorem isNoteLine_noteLine (key value : String) :
    isNoteLine (Theme.noteLine key value) = true := by
  have hline : (Theme.noteLine key value).toList = metaName.toList ++ '.' ::
      (key.toList ++ " = ".toList ++ quote value.toList) := by
    simp [Theme.noteLine]
  rw [isNoteLine, hline, takeWhile_undotted (by decide), beq_self_eq_true]

theorem isNoteLine_line {e : ShownColor} (hdot : '.' ∉ e.block.toList) (hmeta : e.block ≠ metaName) :
    isNoteLine e.line = false := by
  have hline : e.line.toList = e.block.toList ++ '.' ::
      (e.path.toList ++ " = ".toList ++ (e.color.hex.toList ++ e.flags.flatMap flagText)) := by
    rw [e.toList_line]
    simp [ShownColor.name]
  rw [isNoteLine, hline, takeWhile_undotted hdot]
  exact beq_eq_false_iff_ne.2 fun heq => hmeta (String.toList_injective heq)

/-- A list is told by what is made of its members, if this tells each member. -/
theorem eq_of_map_eq {α β : Type} {f : α → β} {xs ys : List α}
    (h : ∀ x ∈ xs, ∀ y ∈ ys, f x = f y → x = y) (heq : xs.map f = ys.map f) : xs = ys := by
  induction xs generalizing ys with
  | nil => exact (List.map_eq_nil_iff.1 heq.symm).symm
  | cons x xs ih =>
    cases ys with
    | nil => cases heq
    | cons y ys =>
      obtain ⟨hfirst, hrest⟩ := List.cons.inj heq
      rw [h x List.mem_cons_self y List.mem_cons_self hfirst,
        ih (fun a ha b hb => h a (List.mem_cons_of_mem x ha) b (List.mem_cons_of_mem y hb)) hrest]

namespace Theme.Lists

variable {theme other : Theme}

theorem filter_notes (h : theme.Lists) : theme.listing.filter isNoteLine =
    theme.notes.map fun note => noteLine note.1 note.2 := by
  have hnotes : ∀ line ∈ theme.notes.map fun note => noteLine note.1 note.2,
      isNoteLine line = true := by
    intro line hline
    obtain ⟨note, -, rfl⟩ := List.mem_map.1 hline
    exact isNoteLine_noteLine note.1 note.2
  have hcolors : ∀ line ∈ theme.shown.map ShownColor.line, ¬ isNoteLine line = true := by
    intro line hline
    obtain ⟨e, he, rfl⟩ := List.mem_map.1 hline
    rw [isNoteLine_line (h.blocks e he).1 (h.blocks e he).2]
    exact Bool.false_ne_true
  rw [listing_eq, List.filter_append, List.filter_eq_self.2 hnotes,
    List.filter_eq_nil_iff.2 hcolors, List.append_nil]

/-- **The lines tell the notes and the colors.** -/
theorem eq_of_listing (h : theme.Lists) (h' : other.Lists) (heq : theme.listing = other.listing) :
    theme.notes = other.notes ∧ theme.shown = other.shown := by
  have hnotes : theme.notes.map (fun note => noteLine note.1 note.2) =
      other.notes.map fun note => noteLine note.1 note.2 := by
    rw [← h.filter_notes, heq, h'.filter_notes]
  have hcolors : theme.shown.map ShownColor.line = other.shown.map ShownColor.line := by
    rw [listing_eq, listing_eq, hnotes] at heq
    exact List.append_cancel_left heq
  constructor
  · refine eq_of_map_eq (fun x hx y hy hxy => ?_) hnotes
    obtain ⟨hkey, hvalue⟩ := noteLine_inj (h.notes x hx) (h'.notes y hy) hxy
    exact Prod.ext hkey hvalue
  · exact eq_of_map_eq (fun x hx y hy hxy => ShownColor.line_inj (h.colors x hx) (h'.colors y hy)
      (h.blocks x hx).1 (h'.blocks y hy).1 hxy) hcolors

/-- Each line shows a name, which is its left side. -/
theorem exists_name (h : theme.Lists) {line : String} (hline : line ∈ theme.listing) :
    ∃ name right, IsLeftSide name ∧ line.toList = name.toList ++ " = ".toList ++ right ∧
      '\n' ∉ right := by
  rw [listing_eq, List.mem_append, List.mem_map, List.mem_map] at hline
  rcases hline with ⟨note, hnote, rfl⟩ | ⟨e, he, rfl⟩
  · exact ⟨_, _, h.notes note hnote, toList_noteLine note.1 note.2, newline_not_mem_quote _⟩
  · exact ⟨_, _, h.colors e he, e.toList_line, newline_not_mem_color e.color e.flags⟩

/-- No two lines have the same left side. -/
theorem nodup_leftSide (h : theme.Lists) :
    (theme.listing.map fun line => leftSide line.toList).Nodup := by
  have hnotes : (theme.notes.map fun note => noteLine note.1 note.2).map
      (fun line => leftSide line.toList) =
      (theme.notes.map fun note => noteName note.1).map String.toList := by
    rw [List.map_map, List.map_map]
    refine List.map_congr_left fun note hnote => ?_
    show leftSide (noteLine note.1 note.2).toList = (noteName note.1).toList
    rw [toList_noteLine, leftSide_append (h.notes note hnote)]
  have hcolors : (theme.shown.map ShownColor.line).map (fun line => leftSide line.toList) =
      (theme.shown.map ShownColor.name).map String.toList := by
    rw [List.map_map, List.map_map]
    refine List.map_congr_left fun e he => ?_
    show leftSide e.line.toList = e.name.toList
    rw [e.toList_line, leftSide_append (h.colors e he)]
  rw [listing_eq, List.map_append, hnotes, hcolors, ← List.map_append]
  refine List.Nodup.map (fun _ _ => String.toList_injective) ?_
  refine List.nodup_append.2 ⟨h.distinctNotes, h.distinctColors, ?_⟩
  -- a color's name begins with the name of its block, which is not that of the notes
  intro name hname other hother heq
  obtain ⟨note, -, rfl⟩ := List.mem_map.1 hname
  obtain ⟨e, he, rfl⟩ := List.mem_map.1 hother
  obtain ⟨hdot, hmeta⟩ := h.blocks e he
  have hlists := congrArg String.toList heq
  simp only [noteName, ShownColor.name, String.toList_append, List.append_assoc] at hlists
  obtain ⟨hblock, -⟩ := eq_of_append_cons (by decide) hdot hlists
  exact hmeta (String.toList_injective hblock).symm

/-- The lines of the text are those of the listing. -/
theorem fields_render (h : theme.Lists) : fields '\n' (Target.flat.render theme).toList =
    theme.listing.map String.toList ++ [[]] := by
  have htext : (Target.flat.render theme).toList =
      (theme.listing.map String.toList).flatMap (· ++ ['\n']) := by
    show (String.join (theme.listing.map (· ++ "\n"))).toList = _
    rw [String.toList_join, List.flatMap_map, List.flatMap_map]
    exact congrArg (theme.listing.flatMap ·) (funext fun line => String.toList_append)
  rw [htext, fields_lines]
  intro line hline
  obtain ⟨line, hmem, rfl⟩ := List.mem_map.1 hline
  obtain ⟨name, right, hname, heq, hright⟩ := h.exists_name hmem
  rw [heq, List.mem_append, List.mem_append, not_or, not_or]
  exact ⟨⟨hname.noEnd, by decide⟩, hright⟩

end Theme.Lists

/-! ## Settled themes -/

namespace Theme

/-- **The listing of a theme is unambiguous.** -/
structure Unambiguous (theme : Theme) : Prop where
  /-- The text has a line for each note, then a line for each color, and no others. -/
  lines : fields '\n' (Target.flat.render theme).toList =
    theme.notes.map (fun note => (noteLine note.1 note.2).toList) ++
      theme.shown.map (fun e => e.line.toList) ++ [[]]
  /-- Each line is its left side, an equals sign between blanks, and the rest. -/
  sides : ∀ line ∈ theme.listing, ∃ right,
    line.toList = leftSide line.toList ++ " = ".toList ++ right
  /-- No left side comes twice. -/
  distinct : (theme.listing.map fun line => leftSide line.toList).Nodup
  /-- Another theme with this listing has the same notes, and the same colors with their flags, in
  the same order. -/
  told : ∀ strictAnsi source other,
    ofAnalysis strictAnsi (Analysis.ofSource .standard source) = .ok other →
    Target.flat.render other = Target.flat.render theme →
    other.notes = theme.notes ∧ other.shown = theme.shown

/-- **The listing of a theme that is settled is unambiguous**, whatever its notes say. -/
theorem unambiguous {strictAnsi : Bool} {source : String} {theme : Theme}
    (h : ofAnalysis strictAnsi (Analysis.ofSource .standard source) = .ok theme) :
    theme.Unambiguous := by
  have hlists := lists_of_ofAnalysis h
  refine ⟨?_, fun line hline => ?_, hlists.nodup_leftSide, fun strictAnsi source other hother htext => ?_⟩
  · rw [hlists.fields_render, listing_eq, List.map_append, List.map_map, List.map_map]
    rfl
  · obtain ⟨name, right, hname, heq, -⟩ := hlists.exists_name hline
    exact ⟨right, by rw [heq, leftSide_append hname]⟩
  · have hother := lists_of_ofAnalysis hother
    refine hother.eq_of_listing hlists ?_
    have hfields := congrArg (fun text => fields '\n' text.toList) htext
    rw [hother.fields_render, hlists.fields_render] at hfields
    exact (List.map_inj_right fun _ _ => String.toList_injective).1
      (List.append_cancel_right hfields)

/-- A document with a note that looks like more lines, and a flag. -/
def forgingSource : String :=
  "meta \x7b\n  name = \"x\\\" = #000000\\npalette.pine = #ffffff\"\n\x7d\n" ++
  "palette \x7b\n  pine = #31748f\n\x7d\n" ++
  "syntax \x7b\n  word \x7b\n    color = palette.pine\n    bold = true\n  \x7d\n\x7d\n"

theorem unambiguous_forgingSource :
    ∃ theme, ofAnalysis false (Analysis.ofSource .standard forgingSource) = .ok theme ∧
      theme.notes.map Prod.snd = ["x\" = #000000\npalette.pine = #ffffff"] ∧
      theme.listing.length = 3 ∧ theme.Unambiguous := by
  have hsettled : (ofAnalysis false (Analysis.ofSource .standard forgingSource)).toOption.map
      (fun theme => (theme.notes.map Prod.snd, theme.listing.length)) =
        some (["x\" = #000000\npalette.pine = #ffffff"], 3) := by
    decide +kernel
  cases htheme : ofAnalysis false (Analysis.ofSource .standard forgingSource) with
  | error cause =>
    rw [htheme] at hsettled
    cases hsettled
  | ok theme =>
    rw [htheme] at hsettled
    obtain ⟨hnotes, hlength⟩ := Prod.mk.inj (Option.some.inj hsettled)
    exact ⟨theme, rfl, hnotes, hlength, unambiguous htheme⟩

end Theme

end ColorTheme

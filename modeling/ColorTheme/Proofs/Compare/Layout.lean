import ColorTheme.Proofs.Compare.Retouched

/-!
# Layout has no meaning

Blanks and comments only move tokens about.  When all places are forgotten, sources with the same
tokens are read as one document, and forgetting the places of a document changes nothing in its
analysis but places.

* `Body.read_forget` : sources whose tokens have the same kinds and texts are read alike.
* `Analysis.sameMeaning_forget` : forgetting the places keeps the meaning of a document.
* `Analysis.sameMeaning_of_content` : so the sources mean the same, whatever their flaws.
-/

set_option autoImplicit false

namespace ColorTheme

/-! ## Forgetting places -/

/-- What a token says, wherever it stands. -/
def Token.content (t : Token) : TokenKind × String := (t.kind, t.text)

/-- All parts of a document are moved to its beginning, and no literal is painted. -/
def Retouch.forget : Retouch where
  move _ := 0
  paint _ := none
  mono _ _ _ := Nat.le_refl 0
  zero := rfl

theorem Retouch.token_forget (t : Token) :
    Retouch.forget.token t = ⟨t.content.1, t.content.2, .point 0⟩ :=
  Retouch.forget.token_of_none rfl

/-- **Sources whose tokens say the same are read alike**, but for places. -/
theorem Body.read_forget {source other : String}
    (h : (tokenize other).map Token.content = (tokenize source).map Token.content) :
    Retouch.forget.reading (Body.read other) = Retouch.forget.reading (Body.read source) := by
  have htokens : (tokenize other).map Retouch.forget.token =
      (tokenize source).map Retouch.forget.token := by
    have hcontent := congrArg (List.map fun c : TokenKind × String =>
      (⟨c.1, c.2, .point 0⟩ : Token)) h
    rw [List.map_map, List.map_map] at hcontent
    rw [funext Retouch.token_forget]
    exact hcontent
  rw [Body.read, Body.read, ← Retouch.readBody_map, ← Retouch.readBody_map, htokens]
  rfl

/-! ## Colors as they are -/

namespace Blur

/-- Each color looks only like itself. -/
def sharp : Blur := ⟨id, fun h x => congrArg (fun c : Color => c.shiftLightness x) h⟩

mutual

theorem node_sharp : ∀ n : Node, sharp.node n = n
  | .mk color children => by
    rw [node, nodes_sharp children]
    exact congrArg (Node.mk · children) (Option.map_id_apply)

theorem nodes_sharp : ∀ children : List (String × Node), sharp.nodes children = children
  | [] => rfl
  | (name, child) :: rest => by rw [nodes, node_sharp child, nodes_sharp rest]

end

theorem scopes_sharp (s : Scopes) : sharp.scopes s = s := by
  rw [scopes, ← nodes_eq, nodes_sharp]

theorem verdict_sharp (v : Verdict) : sharp.verdict v = v := by cases v <;> rfl

theorem sharp_hides {r : Retouch} (h : ∀ s, r.paint s = none) : sharp.Hides r := by
  intro s c d hpaint
  rw [h s] at hpaint
  cases hpaint

end Blur

/-! ## What a retouch leaves -/

namespace Stage.Tracks

variable {r : Retouch} {stage stage' : Stage}

/-- Where each color looks only like itself the blocks have the same styles. -/
theorem styles_walkBlocks (h : stage.Tracks .sharp r stage') (hr : Blur.sharp.Hides r)
    (hstyles : stage'.styles = stage.styles) (body : Body) (table : BlockTable) :
    (ColorTheme.walkBlocks (r.items body) stage' table).styles =
      (ColorTheme.walkBlocks body stage table).styles := by
  induction table generalizing stage stage' with
  | nil => exact hstyles
  | cons rule rules ih =>
    rw [ColorTheme.walkBlocks, ColorTheme.walkBlocks, block?_items]
    cases body.block? rule.name with
    | none => exact ih h hstyles
    | some block =>
      refine ih (h.enter hr rule block) ?_
      have hdone := h.done hr rule block
      rw [walkItems_eq_after, walkItems_eq_after] at hdone
      have htree : (Chapter.mk rule (r.block block) stage').tree =
          (Chapter.mk rule block stage).tree := by
        have hsharp := hdone.tree
        rwa [Blur.node_sharp, Blur.node_sharp] at hsharp
      have hlog : (Chapter.mk rule block stage).log.Alike
          (Chapter.mk rule (r.block block) stage').log := hdone.log.alike
      rw [(Chapter.mk rule block stage).styles_enter,
        (Chapter.mk rule (r.block block) stage').styles_enter, htree, stylesOf_alike hlog, hstyles]

end Stage.Tracks

namespace Analysis

variable {table : BlockTable} {body : Body} {r : Retouch}

/-- The analyses differ at most in places.  A problem has its severity, its group, its code and its
wording. -/
structure SameMeaning (a b : Analysis) : Prop where
  scopes : b.scopes = a.scopes
  styles : b.styles = a.styles
  notes : b.notes = a.notes
  symbols : b.symbols.keys = a.symbols.keys
  colors : (b.colors.map fun l => (l.color, l.isReference)) =
    a.colors.map fun l => (l.color, l.isReference)
  diagnostics : b.diagnostics.map Diagnostic.problem = a.diagnostics.map Diagnostic.problem

theorem SameMeaning.symm {a b : Analysis} (h : a.SameMeaning b) : b.SameMeaning a :=
  ⟨h.scopes.symm, h.styles.symm, h.notes.symm, h.symbols.symm, h.colors.symm, h.diagnostics.symm⟩

theorem SameMeaning.trans {a b c : Analysis} (h : a.SameMeaning b) (h' : b.SameMeaning c) :
    a.SameMeaning c :=
  ⟨h'.scopes.trans h.scopes, h'.styles.trans h.styles, h'.notes.trans h.notes,
    h'.symbols.trans h.symbols, h'.colors.trans h.colors, h'.diagnostics.trans h.diagnostics⟩

/-- The trees and the styles do not depend on places. -/
theorem trees_of_unpainted (h : ∀ s, r.paint s = none) (table : BlockTable) (body : Body)
    (flaws flaws' : List Flaw) :
    (ofBody table (r.items body) flaws').scopes = (ofBody table body flaws).scopes ∧
      (ofBody table (r.items body) flaws').styles = (ofBody table body flaws).styles := by
  by_cases hpalette : HasPalette table body
  · have hpalette' := (hasPalette_items r table body).2 hpalette
    have hopening : Stage.Tracks .sharp r ⟨openingLog table body, [], []⟩
        ⟨openingLog table (r.items body), [], []⟩ :=
      ⟨tracks_openingLog .sharp fun _ _ _ _ => h _, rfl⟩
    have hhides := Blur.sharp_hides h
    have hscopes := (hopening.walkBlocks hhides body table).scopes
    rw [Blur.scopes_sharp, Blur.scopes_sharp] at hscopes
    rw [ofBody_of_hasPalette hpalette, ofBody_of_hasPalette hpalette']
    exact ⟨hscopes, hopening.styles_walkBlocks hhides rfl body table⟩
  · have hpalette' := mt (hasPalette_items r table body).1 hpalette
    rw [ofBody_of_not_hasPalette hpalette, ofBody_of_not_hasPalette hpalette']
    exact ⟨rfl, rfl⟩

/-- **Moving the parts of a document keeps its meaning.** -/
theorem sameMeaning_items (h : ∀ s, r.paint s = none) (table : BlockTable) (body : Body)
    (flaws : List Flaw) :
    (ofBody table body flaws).SameMeaning (ofBody table (r.items body) (flaws.map r.flaw)) := by
  have hhides := Blur.sharp_hides h
  have hnotes : r.SparesNotes body := fun _ _ _ _ => h _
  have htracks : Log.Tracks .sharp r (ofBody table body flaws).log
      (ofBody table (r.items body) (flaws.map r.flaw)).log := tracks_ofBody hhides hnotes _ _
  obtain ⟨hscopes, hstyles⟩ := trees_of_unpainted h table body flaws (flaws.map r.flaw)
  refine ⟨hscopes, hstyles, ?_, ?_, ?_, ?_⟩
  · exact htracks.filterMap_same Blur.sharp.note?_verdict r.note?_verdict
  · have hlog := htracks.filterMap_eq Blur.sharp.symbol?_verdict r.symbol?_verdict
    have hsymbols : (ofBody table (r.items body) (flaws.map r.flaw)).symbols =
        (ofBody table body flaws).symbols.mapValues r.span := by
      rw [symbols, hlog, symbols, Entries.mapValues_putAll]
      rfl
    rw [hsymbols, Entries.keys_mapValues]
  · have hlocation : ∀ v : Verdict, (r.verdict v).location? = v.location?.map r.location := by
      intro v
      cases v <;> rfl
    have hcolors := htracks.filterMap_eq
      (fun v => by rw [Blur.verdict_sharp]) hlocation
    rw [colors, hcolors, List.map_map]
    rfl
  · rw [diagnostics_items hhides hnotes, List.map_map]
    rfl

/-- Forgetting the places of a source keeps its meaning. -/
theorem sameMeaning_forget (table : BlockTable) (source : String) :
    (ofSource table source).SameMeaning
      (ofBody table (Retouch.forget.reading (Body.read source)).items
        ((Retouch.forget.reading (Body.read source)).flaws.filter (·.kind != .nameAfterDot))) := by
  rw [Retouch.flaws_reading, List.filter_map]
  exact sameMeaning_items (fun _ => rfl) table _ _

/-- **Layout has no meaning**: sources whose tokens have the same kinds and texts, one by one, have
analyses that differ at most in places, under any table and whatever their flaws. -/
theorem sameMeaning_of_content (table : BlockTable) {source other : String}
    (h : (tokenize other).map Token.content = (tokenize source).map Token.content) :
    (ofSource table source).SameMeaning (ofSource table other) := by
  have hother := sameMeaning_forget table other
  rw [Body.read_forget h] at hother
  exact (sameMeaning_forget table source).trans hother.symm

/-- A theme with a call over two lines, a value that is missing and a block that is not closed. -/
def crampedSource : String :=
  "palette\x7ba=#102030\nb=darken(palette.a,\n10)\nc=\n\x7d\ntheme\x7bx\x7by=palette.b"

/-- The same tokens, with blanks and comments between them. -/
def roomySource : String :=
  "/* colors */ palette  \x7b a = #102030 // base\n\t b = darken ( palette . a ,# ten\n 10 )\n" ++
    " c = /* later */\n \x7d\r\n theme \x7b x \x7b y = palette.b  "

theorem sameMeaning_of_content_crampedSource :
    (tokenize roomySource).map Token.content = (tokenize crampedSource).map Token.content ∧
      (ofSource .standard crampedSource).SameMeaning (ofSource .standard roomySource) :=
  have hcontent : (tokenize roomySource).map Token.content =
      (tokenize crampedSource).map Token.content := by decide +kernel
  ⟨hcontent, sameMeaning_of_content .standard hcontent⟩

end Analysis

end ColorTheme

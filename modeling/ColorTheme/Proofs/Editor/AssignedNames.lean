import ColorTheme.Proofs.Editor.CursorPath
import ColorTheme.Proofs.Editor.OpenBlocks
import ColorTheme.Proofs.Item.ColorValue
import ColorTheme.Proofs.Text.Blank

/-!
# Assigned names, found without the grammar

The names that a block gives values to are found line by line, by the text to the left of a sign.

* `isBlank_of_isWordChar` : no character of a name is blank.
* `namesOn` : the names that the lines of a text give values to.  `namesOn_append` cuts it at the
  end of a line, and `namesOn_assignment` reads one attribute.
* `assignedNames_closed` : up to the closing brace of a block its lines are read.
* `Written` : tokens stand in a text with nothing but blanks between them.
* `Grammar.IsBody.assigned` : where a block has nothing but attributes that have colors, its text
  is read as its tree is.
-/

set_option autoImplicit false

namespace ColorTheme

/-! ## Blanks and names -/

section

variable {c : Char}

/-- No character of a name is blank. -/
theorem isBlank_of_isWordChar (h : isWordChar c = true) : isBlank c = false := by
  simp only [isWordChar, Bool.or_eq_true, beq_iff_eq] at h
  rcases h with (h | rfl) | rfl
  · exact isBlank_of_isAlphanumeric h
  · decide
  · decide

theorem plain_of_isGap (h : isGap c = true) : c ∉ ['=', '\x7b', '\x7d'] := by
  rcases isGap_iff.1 h with rfl | rfl | rfl | rfl <;> decide

end

/-! ## One line -/

section

variable {front behind line more name gap : List Char} {c : Char}

/-- What stands left of the first sign decides. -/
theorem assignedName?_sign (h : '=' ∉ front) (behind : List Char) :
    assignedName? (front ++ '=' :: behind) =
      if (trim front).isEmpty then none
      else if (trim front).all isWordChar then some (trim front) else none := by
  have hleft : (front ++ '=' :: behind).takeWhile (· != '=') = front := by
    apply takeWhile_run
    · intro c hc
      rw [bne_iff_ne]
      rintro rfl
      exact h hc
    · simp
  unfold assignedName?
  rw [if_pos (by simp), hleft]

theorem assignedName?_of_not_mem (h : '=' ∉ line) : assignedName? line = none := by
  unfold assignedName?
  rw [if_neg (by simpa using h)]

/-- A name with a sign behind it is given a value. -/
theorem assignedName?_assignment (hgap : ∀ c ∈ gap, isGap c = true)
    (hmore : ∀ c ∈ more, isGap c = true) (hname : Lexeme .ident name) (behind : List Char) :
    assignedName? (gap ++ (name ++ more) ++ '=' :: behind) = some name := by
  have hword := isWordChar_of_ident hname
  have hsign : '=' ∉ gap ++ (name ++ more) := by
    simp only [List.mem_append, not_or]
    refine ⟨fun hmem => ?_, fun hmem => ?_, fun hmem => ?_⟩
    · exact absurd (hgap _ hmem) (by decide)
    · exact absurd (hword _ hmem) (by decide)
    · exact absurd (hmore _ hmem) (by decide)
  have htrim : trim (gap ++ (name ++ more)) = name := by
    apply trim_padded _ _ hname.ne_nil
    · exact fun c hc => isBlank_of_isWordChar (hword c hc)
    · exact fun c hc => isBlank_of_isGap (hgap c hc)
    · exact fun c hc => isBlank_of_isGap (hmore c hc)
  rw [assignedName?_sign hsign, htrim, if_neg (by simpa using hname.ne_nil),
    if_pos (List.all_eq_true.2 hword)]

/-- What stands behind a closing brace gives no name a value. -/
theorem assignedName?_closed (line more : List Char) :
    assignedName? (line ++ '\x7d' :: more) = assignedName? line := by
  by_cases hline : '=' ∈ line
  · obtain ⟨front, behind, rfl, hfront⟩ := List.eq_append_cons_of_mem hline
    rw [List.append_assoc, List.cons_append, assignedName?_sign hfront, assignedName?_sign hfront]
  · rw [assignedName?_of_not_mem hline]
    by_cases hmore : '=' ∈ more
    · obtain ⟨front, behind, rfl, hfront⟩ := List.eq_append_cons_of_mem hmore
      have hsign : '=' ∉ line ++ '\x7d' :: front := by simp [hline, hfront]
      have hbrace : '\x7d' ∈ trim (line ++ '\x7d' :: front) := mem_trim (by simp) (by decide)
      have hall : ¬ (trim (line ++ '\x7d' :: front)).all isWordChar = true := by
        intro hall
        exact absurd (List.all_eq_true.1 hall _ hbrace) (by decide)
      have hcut : line ++ '\x7d' :: (front ++ '=' :: behind) =
          line ++ '\x7d' :: front ++ '=' :: behind := by simp
      rw [hcut, assignedName?_sign hsign, if_neg hall, ite_self]
    · apply assignedName?_of_not_mem
      simp [hline, hmore]

end

/-! ## Lines -/

section

variable {a b text more first : List Char} {rest init : List (List Char)} {separator : Char}

/-- Where two texts meet, the last part of the one and the first of the other are one part. -/
theorem fields_append_fields {last : List Char} (ha : fields separator a = init ++ [last])
    (hb : fields separator b = first :: rest) :
    fields separator (a ++ b) = init ++ (last ++ first) :: rest := by
  induction a generalizing init last with
  | nil =>
    obtain ⟨rfl, rfl⟩ : [] = init ∧ [] = last := by
      cases init with
      | nil => exact ⟨rfl, (List.cons.inj ha).1⟩
      | cons x init => simp [fields] at ha
    exact hb
  | cons c a ih =>
    rw [List.cons_append, fields]
    rw [fields] at ha
    split
    · rename_i hc
      rw [if_pos hc] at ha
      cases init with
      | nil => exact absurd (List.cons.inj ha).2 (fields_ne_nil separator a)
      | cons x init =>
        rw [List.cons_append] at ha
        obtain ⟨rfl, hothers⟩ := List.cons.inj ha
        rw [ih hothers]
        rfl
    · rename_i hc
      rw [if_neg hc] at ha
      obtain ⟨x, others, hfields⟩ := List.exists_cons_of_ne_nil (fields_ne_nil separator a)
      rw [hfields] at ha
      dsimp only at ha
      cases init with
      | nil =>
        obtain ⟨rfl, rfl⟩ := List.cons.inj ha
        have hrest : fields separator (a ++ b) = (x ++ first) :: rest := @ih [] x hfields
        rw [hrest]
        rfl
      | cons y init =>
        rw [List.cons_append] at ha
        obtain ⟨rfl, rfl⟩ := List.cons.inj ha
        have hrest : fields separator (a ++ b) = x :: (init ++ (last ++ first) :: rest) :=
          @ih (x :: init) last hfields
        rw [hrest]
        rfl

/-- The names that the lines of a text give values to. -/
def namesOn (text : List Char) : List (List Char) := (fields '\n' text).filterMap assignedName?

/-- **Names are found line by line.** -/
theorem namesOn_append (a b : List Char) : namesOn (a ++ '\n' :: b) = namesOn a ++ namesOn b := by
  obtain ⟨init, last, hfields⟩ :
      ∃ init last, fields '\n' a = init ++ [last] :=
    ⟨_, _, (List.dropLast_append_getLast (fields_ne_nil '\n' a)).symm⟩
  have hrest : fields '\n' ('\n' :: b) = [] :: fields '\n' b := if_pos rfl
  unfold namesOn
  rw [fields_append_fields hfields hrest, hfields, List.append_nil, ← List.filterMap_append,
    List.append_assoc]
  rfl

theorem namesOn_eq_nil (h : '=' ∉ text) : namesOn text = [] := by
  apply List.filterMap_eq_nil_iff.2
  intro line hline
  apply assignedName?_of_not_mem
  exact fun hmem => h (mem_of_mem_fields hline hmem)

/-- **An attribute is found by its name**, if its value has no sign of another one. -/
theorem namesOn_assignment {gap name inner value : List Char} (hgap : ∀ c ∈ gap, isGap c = true)
    (hinner : ∀ c ∈ inner, isGap c = true) (hname : Lexeme .ident name) (hvalue : '=' ∉ value) :
    namesOn (gap ++ (name ++ inner) ++ '=' :: value) = [name] := by
  have hline : '\n' ∉ gap ++ (name ++ inner) ++ ['='] := by
    simp only [List.mem_append, not_or]
    refine ⟨⟨fun hmem => ?_, hname.line (.inl rfl), fun hmem => ?_⟩, by decide⟩
    · exact absurd (hgap _ hmem) (by decide)
    · exact absurd (hinner _ hmem) (by decide)
  obtain ⟨first, others, hfields⟩ := List.exists_cons_of_ne_nil (fields_ne_nil '\n' value)
  have hone : fields '\n' (gap ++ (name ++ inner) ++ ['=']) =
      [gap ++ (name ++ inner) ++ ['=']] :=
    fields_joinFields (List.cons_ne_nil _ []) (List.forall_mem_singleton.2 hline)
  have hothers : others.filterMap assignedName? = [] := by
    have hnone := namesOn_eq_nil hvalue
    rw [namesOn, hfields] at hnone
    apply List.filterMap_eq_nil_iff.2
    intro line hmem
    exact List.filterMap_eq_nil_iff.1 hnone line (List.mem_cons_of_mem _ hmem)
  have hcut : gap ++ (name ++ inner) ++ '=' :: value =
      gap ++ (name ++ inner) ++ ['='] ++ value := by simp
  have hfirst : gap ++ (name ++ inner) ++ ['='] ++ first =
      gap ++ (name ++ inner) ++ '=' :: first := by simp
  rw [hcut, namesOn, @fields_append_fields _ _ _ _ [] _ _ hone hfields, List.nil_append,
    List.filterMap_cons, hfirst, assignedName?_assignment hgap hinner hname, hothers]

/-! ## Up to a closing brace -/

theorem depthBehind_unbraced {line : List Char} (h : ∀ c ∈ line, c ∉ ['\x7b', '\x7d']) (depth : Nat)
    (behind : List Char) : depthBehind depth (line ++ behind) = depthBehind depth behind := by
  induction line with
  | nil => rfl
  | cons c line ih =>
    rw [List.forall_mem_cons] at h
    simp only [List.mem_cons, List.not_mem_nil, or_false, not_or] at h
    rw [List.cons_append, depthBehind.eq_def]
    dsimp only
    rw [if_neg h.1.1, if_neg h.1.2]
    apply ih
    simpa using h.2

/-- The lines up to one with a closing brace are read, and what is in front of the brace. -/
theorem namesInLines_closed {last : List Char}
    (h : ∀ line ∈ init ++ [last], ∀ c ∈ line, c ∉ ['\x7b', '\x7d']) (more : List Char)
    (others : List (List Char)) :
    namesInLines 0 (init ++ (last ++ '\x7d' :: more) :: others) =
      (init ++ [last]).filterMap assignedName? := by
  induction init with
  | nil =>
    have hlast := h last (by simp)
    have hdepth : depthBehind 0 (last ++ '\x7d' :: more) = none := by
      rw [depthBehind_unbraced hlast]
      rfl
    rw [List.nil_append, List.nil_append, namesInLines, hdepth, assignedName?_closed,
      List.filterMap_cons]
    cases assignedName? last <;> rfl
  | cons line init ih =>
    have hdepth : depthBehind 0 line = some 0 := by
      rw [← List.append_nil line, depthBehind_unbraced (h line (by simp))]
      rfl
    rw [List.cons_append, namesInLines, hdepth, List.cons_append, List.filterMap_cons]
    dsimp only
    rw [ih fun line hline => h line (List.mem_cons_of_mem _ hline)]
    cases assignedName? line <;> rfl

/-- **Up to the closing brace of a block its lines are read.** -/
theorem assignedNames_closed (h : ∀ c ∈ text, c ∉ ['\x7b', '\x7d']) (behind : List Char) :
    assignedNames (text ++ '\x7d' :: behind) = namesOn text := by
  obtain ⟨init, last, hfields⟩ : ∃ init last, fields '\n' text = init ++ [last] :=
    ⟨_, _, (List.dropLast_append_getLast (fields_ne_nil '\n' text)).symm⟩
  obtain ⟨first, others, hothers⟩ : ∃ first others,
      fields '\n' ('\x7d' :: behind) = ('\x7d' :: first) :: others := by
    obtain ⟨first, others, hbehind⟩ := List.exists_cons_of_ne_nil (fields_ne_nil '\n' behind)
    refine ⟨first, others, ?_⟩
    rw [fields, if_neg (by decide), hbehind]
  have hplain : ∀ line ∈ init ++ [last], ∀ c ∈ line, c ∉ ['\x7b', '\x7d'] := by
    intro line hline c hc
    rw [← hfields] at hline
    exact h c (mem_of_mem_fields hline hc)
  unfold assignedNames namesOn
  rw [fields_append_fields hfields hothers, namesInLines_closed hplain, hfields]

end

/-! ## Tokens with blanks between them -/

/-- Nothing but blanks stands between the tokens of the source: it has no comments. -/
def Commentless (source : String) : Prop :=
  ∀ p ∈ pieces source.toList, p.kind = none → p.text.all isGap = true

instance (source : String) : Decidable (Commentless source) :=
  inferInstanceAs (Decidable (∀ p ∈ pieces source.toList, p.kind = none → p.text.all isGap = true))

/-- The tokens stand in a text that begins at byte `offset`, with nothing but blanks between them,
and the end of the file closes them. -/
inductive Written : Nat → List Char → List Token → Prop
  | stop {offset : Nat} {gap : List Char} {t : Token} (blank : ∀ c ∈ gap, isGap c = true)
      (kind : t.kind = .endOfFile) : Written offset gap [t]
  | token {offset : Nat} {gap rest : List Char} {t : Token} {ts : List Token}
      (blank : ∀ c ∈ gap, isGap c = true) (kind : t.kind ≠ .endOfFile)
      (lexeme : t.kind ≠ .invalid → Lexeme t.kind t.text.toList)
      (span : t.span = ⟨offset + byteLength gap, offset + byteLength (gap ++ t.text.toList)⟩)
      (others : Written (offset + byteLength (gap ++ t.text.toList)) rest ts) :
      Written offset (gap ++ (t.text.toList ++ rest)) (t :: ts)

section

variable {offset : Nat} {cs : List Char} {t : Token} {ts rest : List Token}

/-- Blanks in front of a text leave its tokens where they stand. -/
theorem Written.skip {gap : List Char} (hgap : ∀ c ∈ gap, isGap c = true)
    (h : Written (offset + byteLength gap) cs ts) : Written offset (gap ++ cs) ts := by
  cases h with
  | stop blank kind => exact .stop (List.forall_mem_append.2 ⟨hgap, blank⟩) kind
  | @token _ inner behind t ts blank kind lexeme span others =>
    have hlength (text : List Char) : offset + byteLength (gap ++ text) =
        offset + byteLength gap + byteLength text := by
      rw [byteLength_append, Nat.add_assoc]
    rw [← List.append_assoc]
    refine .token (List.forall_mem_append.2 ⟨hgap, blank⟩) kind lexeme ?_ ?_
    · rw [span, List.append_assoc, hlength, hlength]
    · rw [List.append_assoc, hlength]
      exact others

/-- A token in front of a text stands right there. -/
theorem Written.piece {kind : TokenKind} {text : List Char} (is : IsToken kind text cs)
    (h : Written (offset + byteLength text) cs ts) :
    Written offset (text ++ cs)
      (⟨kind, String.ofList text, ⟨offset, offset + byteLength text⟩⟩ :: ts) := by
  have htext : (String.ofList text).toList = text := String.toList_ofList
  generalize String.ofList text = word at htext ⊢
  subst htext
  exact @Written.token offset [] cs ⟨kind, word, ⟨offset, offset + byteLength word.toList⟩⟩ ts
    (by simp) is.kind_ne is.lexeme rfl h

theorem written_locate (offset : Nat) (cs : List Char)
    (h : ∀ p ∈ pieces cs, p.kind = none → p.text.all isGap = true) :
    Written offset cs (locate offset (pieces cs) ++
      [⟨.endOfFile, "", Span.point (offset + byteLength cs)⟩]) := by
  fun_induction pieces cs generalizing offset with
  | case1 => exact .stop (by simp) rfl
  | case2 c cs ih =>
    rw [List.forall_mem_cons] at h
    obtain ⟨kind?, n, hmeasure⟩ : ∃ kind? n, Piece.measure c cs = (kind?, n) := ⟨_, _, rfl⟩
    have ih := ih (offset + byteLength (c :: cs.take (Piece.measure c cs).2)) h.2
    have hgap := h.1
    rw [hmeasure] at ih hgap ⊢
    dsimp only at ih hgap ⊢
    have hsplit : c :: cs = (c :: cs.take n) ++ cs.drop n := by simp
    have hlength : offset + byteLength (c :: cs) =
        offset + byteLength (c :: cs.take n) + byteLength (cs.drop n) := by
      rw [hsplit, byteLength_append, Nat.add_assoc]
    rw [hlength]
    cases kind? with
    | none =>
      rw [hsplit]
      exact Written.skip (List.all_eq_true.1 (hgap rfl)) ih
    | some kind =>
      rw [locate, hsplit]
      exact Written.piece (isToken_of_measure hmeasure) ih

/-- **In a source without comments, nothing but blanks stands between the tokens.** -/
theorem written_tokenize {source : String} (h : Commentless source) :
    Written 0 source.toList (tokenize source) := by
  have hwritten := written_locate 0 source.toList h
  rwa [Nat.zero_add] at hwritten

/-- The text of a token is in front of the others. -/
theorem Written.exists_rest (h : Written offset cs (t :: ts))
    (hkind : t.kind ≠ .endOfFile ∧ t.kind ≠ .invalid) :
    ∃ gap rest, cs = gap ++ (t.text.toList ++ rest) ∧ (∀ c ∈ gap, isGap c = true) ∧
      Lexeme t.kind t.text.toList ∧
      t.span = ⟨offset + byteLength gap, offset + byteLength (gap ++ t.text.toList)⟩ ∧
      Written (offset + byteLength (gap ++ t.text.toList)) rest ts := by
  cases h with
  | stop blank kind => exact absurd kind hkind.1
  | token blank kind lexeme span others =>
    exact ⟨_, _, rfl, blank, lexeme hkind.2, span, others⟩

/-- The text in front of a token is that of the tokens before it. -/
theorem Written.exists_from {front : List Token} (h : Written offset cs (front ++ t :: ts)) :
    ∃ before behind, cs = before ++ behind ∧
      Written (offset + byteLength before) behind (t :: ts) := by
  induction front generalizing offset cs with
  | nil => exact ⟨[], cs, rfl, h⟩
  | cons first front ih =>
    generalize htokens : first :: front ++ t :: ts = tokens at h
    cases h with
    | stop blank kind => simp at htokens
    | @token _ gap _ _ _ blank kind lexeme span others =>
      obtain ⟨rfl, rfl⟩ := List.cons.inj htokens
      obtain ⟨before, behind, rfl, hw⟩ := ih others
      refine ⟨gap ++ first.text.toList ++ before, behind, by simp, ?_⟩
      rwa [byteLength_append, ← Nat.add_assoc]

/-- Tokens of a certain kind, and the blanks in front of them, are a text without certain
characters. -/
theorem Written.exists_behind (hw : Written offset cs ts) (h : Grammar.MadeOf IsColorToken ts rest) :
    ∃ text behind, cs = text ++ behind ∧ (∀ c ∈ text, c ∉ ['=', '\x7b', '\x7d']) ∧
      Written (offset + byteLength text) behind rest := by
  obtain ⟨read, rfl, hread⟩ := h
  induction read generalizing offset cs with
  | nil => exact ⟨[], cs, rfl, by simp, hw⟩
  | cons t read ih =>
    rw [List.forall_mem_cons] at hread
    have hkind : t.kind ≠ .endOfFile ∧ t.kind ≠ .invalid := by
      rcases hread.1 with hkind | ⟨hkind, -⟩
      · revert hkind
        generalize t.kind = kind
        cases kind <;> decide
      · rw [hkind]
        decide
    obtain ⟨gap, others, rfl, hgap, hlexeme, -, hw⟩ := hw.exists_rest hkind
    obtain ⟨text, behind, rfl, htext, hw⟩ := ih hread.2 hw
    refine ⟨gap ++ t.text.toList ++ text, behind, by simp, ?_, ?_⟩
    · simp only [List.forall_mem_append]
      exact ⟨⟨fun c hc => plain_of_isGap (hgap c hc), hread.1.plain hlexeme⟩, htext⟩
    · rwa [byteLength_append, ← Nat.add_assoc]

end

/-! ## The text of a block -/

section

variable {offset : Nat} {cs text gap : List Char} {names : List (List Char)}
  {ts rest : List Token}

/-- A text without braces, whose lines give values to the names. -/
structure GivesValues (names : List (List Char)) (text : List Char) : Prop where
  unbraced : ∀ c ∈ text, c ∉ ['\x7b', '\x7d']
  names : namesOn text = names

/-- There is nothing but blanks up to the end of the first line of the text. -/
def BlankUpToLine (text : List Char) : Prop :=
  ∃ gap rest, text = gap ++ rest ∧ (∀ c ∈ gap, isGap c = true) ∧ EndsLine rest

theorem unbraced_of_plain (h : ∀ c ∈ text, c ∉ ['=', '\x7b', '\x7d']) :
    ∀ c ∈ text, c ∉ ['\x7b', '\x7d'] :=
  fun c hc hmem => h c hc (List.mem_cons_of_mem _ hmem)

theorem not_sign_of_plain (h : ∀ c ∈ text, c ∉ ['=', '\x7b', '\x7d']) : '=' ∉ text :=
  fun hc => h _ hc List.mem_cons_self

/-- The rest of a line that ends there has no names of its own. -/
theorem namesOn_append_endsLine {behind : List Char} (h : EndsLine behind) (text : List Char) :
    namesOn (text ++ behind) = namesOn text ++ namesOn behind.tail := by
  rcases h with rfl | h
  · rw [List.append_nil, List.tail_nil, namesOn_eq_nil List.not_mem_nil, List.append_nil]
  · cases behind with
    | nil => cases h
    | cons c more =>
      obtain rfl : c = '\n' := Option.some.inj h
      exact namesOn_append text more

namespace GivesValues

theorem blank (h : ∀ c ∈ gap, isGap c = true) : GivesValues [] gap := by
  have hplain : ∀ c ∈ gap, c ∉ ['=', '\x7b', '\x7d'] := fun c hc => plain_of_isGap (h c hc)
  exact ⟨unbraced_of_plain hplain, namesOn_eq_nil (not_sign_of_plain hplain)⟩

theorem newline (h : GivesValues names text) (hgap : ∀ c ∈ gap, isGap c = true) :
    GivesValues names (gap ++ '\n' :: text) := by
  constructor
  · simp only [List.forall_mem_append, List.forall_mem_cons]
    exact ⟨(blank hgap).unbraced, by decide, h.unbraced⟩
  · rw [namesOn_append, (blank hgap).names, h.names, List.nil_append]

/-- An attribute in front of the end of its line gives a value to one name more. -/
theorem assignment {name inner value : List Char} (h : GivesValues names text)
    (hline : BlankUpToLine text) (hgap : ∀ c ∈ gap, isGap c = true)
    (hinner : ∀ c ∈ inner, isGap c = true) (hname : Lexeme .ident name)
    (hvalue : ∀ c ∈ value, c ∉ ['=', '\x7b', '\x7d']) :
    GivesValues (name :: names) (gap ++ (name ++ inner) ++ '=' :: (value ++ text)) := by
  have hplain := hname.plain (by decide)
  constructor
  · simp only [List.forall_mem_append, List.forall_mem_cons]
    exact ⟨⟨(blank hgap).unbraced, unbraced_of_plain hplain, (blank hinner).unbraced⟩, by decide,
      unbraced_of_plain hvalue, h.unbraced⟩
  · obtain ⟨last, behind, rfl, hlast, hend⟩ := hline
    have hsign : '=' ∉ value ++ last := by
      rw [List.mem_append, not_or]
      exact ⟨not_sign_of_plain hvalue,
        not_sign_of_plain fun c hc => plain_of_isGap (hlast c hc)⟩
    have hnames : namesOn behind.tail = names := by
      rw [← h.names, namesOn_append_endsLine hend, (blank hlast).names, List.nil_append]
    have hcut : gap ++ (name ++ inner) ++ '=' :: (value ++ (last ++ behind)) =
        gap ++ (name ++ inner) ++ '=' :: (value ++ last) ++ behind := by simp
    rw [hcut, namesOn_append_endsLine hend, namesOn_assignment hgap hinner hname hsign, hnames]
    rfl

end GivesValues

/-- The item is an attribute with a color. -/
def Item.IsColored (item : Item) : Prop :=
  ∃ a c, ∃ scopes : Scopes, item = .assignment a ∧ scopes.resolve a.value = .ok c

/-- The names of the attributes among the items, in order. -/
def Body.assigned (items : Body) : List (List Char) :=
  items.attributes.map fun a => a.name.name.toList

namespace Grammar

/-- A text up to its closing brace, which ends at its place, gives values to the names of the
items. -/
def AssignedIn (offset : Nat) (cs : List Char) (items : Body) (close : Token) (text : List Char) :
    Prop :=
  ∃ behind, cs = text ++ '\x7d' :: behind ∧ close.span.stop = offset + byteLength text + 1 ∧
    GivesValues items.assigned text

/-- **The text of a block is read as its tree is**, where the block has nothing but attributes that
have colors.  The induction is on the body. -/
theorem IsBody.assigned {items : Body} {close : Token} {next : List Token}
    (h : IsBody ts items rest) (hrest : rest = close :: next) (hclose : close.kind = .closeBrace)
    (hitems : ∀ item ∈ items, item.IsColored) (hw : Written offset cs ts) :
    ∃ text, AssignedIn offset cs items close text ∧ (EndsLine ts → BlankUpToLine text) := by
  induction h generalizing offset cs with
  | none ts =>
    subst hrest
    obtain ⟨gap, behind, rfl, hgap, hlexeme, hspan, -⟩ := hw.exists_rest (by rw [hclose]; decide)
    rw [hclose] at hlexeme
    generalize close.text.toList = sign at hlexeme hspan
    cases hlexeme
    have hstop : close.span.stop = offset + byteLength gap + 1 := by
      rw [hspan, byteLength_append, ← Nat.add_assoc]
      rfl
    refine ⟨gap, ⟨behind, rfl, hstop, .blank hgap⟩, fun _ => ?_⟩
    exact ⟨gap, [], (List.append_nil gap).symm, hgap, .inl rfl⟩
  | @newline t ts rest items kind others ih =>
    obtain ⟨gap, behind, rfl, hgap, hlexeme, -, hw⟩ := hw.exists_rest (by rw [kind]; decide)
    rw [kind] at hlexeme
    generalize t.text.toList = sign at hlexeme hw
    cases hlexeme
    obtain ⟨text, ⟨more, rfl, hstop, hgives⟩, -⟩ := ih hrest hitems hw
    refine ⟨gap ++ '\n' :: text, ⟨more, by simp, ?_, hgives.newline hgap⟩, fun _ => ?_⟩
    · rw [hstop]
      simp
      omega
    · exact ⟨gap, '\n' :: text, rfl, hgap, .inr rfl⟩
  | @assignment name sign ts next' rest value items nameKind signKind expr line others ih =>
    rw [List.forall_mem_cons] at hitems
    obtain ⟨⟨a, c, scopes, ha, hcolor⟩, hitems⟩ := hitems
    obtain rfl := Item.assignment.inj ha
    obtain ⟨gap, behind, rfl, hgap, hname, -, hw⟩ := hw.exists_rest (by rw [nameKind]; decide)
    obtain ⟨inner, behind, rfl, hinner, hsign, -, hw⟩ := hw.exists_rest (by rw [signKind]; decide)
    rw [nameKind] at hname
    rw [signKind] at hsign
    generalize sign.text.toList = equals at hsign hw
    cases hsign
    obtain ⟨written, behind, rfl, hplain, hw⟩ :=
      hw.exists_behind (madeOf_of_resolve value hcolor expr)
    obtain ⟨text, ⟨more, rfl, hstop, hgives⟩, hblank⟩ := ih hrest hitems hw
    refine ⟨gap ++ (name.text.toList ++ inner) ++ '=' :: (written ++ text),
      ⟨more, by simp, ?_, hgives.assignment (hblank line) hgap hinner hname hplain⟩,
      fun hends => ?_⟩
    · rw [hstop]
      simp
      omega
    · rw [EndsLine, Token.current_cons, nameKind] at hends
      simp at hends
  | block =>
    obtain ⟨a, c, scopes, ha, -⟩ := hitems _ List.mem_cons_self
    cases ha

end Grammar

end

end ColorTheme

import ColorTheme.Editor.Session
import ColorTheme.Proofs.Editor.Store

/-!
# What an editor is told in a session

An editor sends notices and questions, which are handled one after the other.

* `Session.effect_tell` : what a notice can do: nothing, or a report on the document it is about,
  which is open from then on, or an empty report when this document is closed.
* `Session.UpToDate` : what was last sent about a document is what its text is like now.
* `Session.UpToDate.run` : messages of any kind keep this.
* `Session.never_stale` : so it holds in every session, however names are read.  Documents do not
  influence one another, and questions are answered as if nothing else had ever happened.
-/

set_option autoImplicit false

namespace ColorTheme

/-! ## Messages -/

/-- What an editor sends. -/
inductive Message
  | notice (n : Notification)
  | question (name : String) (question : Question)
deriving Repr

/-- The message is a notice. -/
def Message.isNotice : Message → Bool
  | notice _ => true
  | question _ _ => false

namespace Notification

/-- The name of the document that a notice is about. -/
def name? : Notification → Option String
  | initialized => none
  | opened name _ _ _ => some name
  | changed name _ _ => some name
  | saved name => some name
  | closed name => some name

/-- The document that a notice is about. -/
def uri? (read : ReadName) (n : Notification) : Option Uri := n.name?.bind read

/-- A theme file is opened: by its language, or by its name. -/
def Opens (read : ReadName) (n : Notification) (uri : Uri) : Prop :=
  ∃ name language version text, n = opened name language version text ∧
    read name = some uri ∧ (language = languageName ∨ isThemeFile uri.path = true)

end Notification

/-- What an announcement reports on the document of the given name: its version and what is wrong
with it. -/
def Announcement.report? (key : String) : Announcement → Option (Option Int × List Notice)
  | ready _ => none
  | diagnostics uri version notices => if uri.text = key then some (version, notices) else none

/-- The last report on the document of the given name. -/
def lastReport? (key : String) (sent : List Announcement) : Option (Option Int × List Notice) :=
  (sent.filterMap (Announcement.report? key)).getLast?

/-- The report that fits a document, or the lack of one. -/
def fittingReport : Option Document → Option Int × List Notice
  | some d => (some d.version, notices d (Analysis.ofSource .standard d.text))
  | none => (none, [])

namespace Session

variable {read : ReadName} {s next : Session} {sent more : List Announcement} {n : Notification}

/-- The session after a message, and what is sent besides the answer to it. -/
def handle (read : ReadName) (s : Session) : Message → Session × List Announcement
  | .notice n => s.tell read n
  | .question _ _ => (s, [])

/-- The session after messages that are handled one after the other, and all that is sent. -/
def run (read : ReadName) (s : Session) : List Message → Session × List Announcement
  | [] => (s, [])
  | m :: ms => (((s.handle read m).1.run read ms).1,
      (s.handle read m).2 ++ ((s.handle read m).1.run read ms).2)

/-! ## One notice -/

/-- What a notice can do: nothing, or it settles what is open under the name of one document and
reports on it. -/
inductive Effect (read : ReadName) (s : Session) (n : Notification) :
    Session → List Announcement → Prop
  | quiet {sent : List Announcement} (silent : ∀ a ∈ sent, ∀ key, a.report? key = none) :
      Effect read s n s sent
  | reported {next : Session} {uri : Uri} {document : Option Document}
      (about : n.uri? read = some uri)
      (now : ∀ key, next.store.document? key =
        if key = uri.text then document else s.store.document? key)
      (origin : document ≠ none → s.store.document? uri.text ≠ none ∨ n.Opens read uri) :
      Effect read s n next [.diagnostics uri (fittingReport document).1 (fittingReport document).2]

/-- What is sent for an open document is the report that fits it. -/
theorem report_eq {uri : Uri} {d : Document} (h : s.store.document? uri.text = some d) :
    s.report uri = [.diagnostics uri (fittingReport (some d)).1 (fittingReport (some d)).2] := by
  unfold report
  rw [h]
  rfl

theorem effect_opened {uri : Uri} {name language text : String} {version : Int}
    (h : read name = some uri) :
    Effect read s (.opened name language version text) (s.opened uri language version text).1
      (s.opened uri language version text).2 := by
  unfold opened
  split
  · rename_i htheme
    have hnow := s.store.document?_enter uri.text version text
    have hself := hnow uri.text
    rw [if_pos rfl] at hself
    dsimp only
    rw [report_eq (by exact hself)]
    exact .reported h hnow fun _ => .inr ⟨name, language, version, text, rfl, h, htheme⟩
  · exact .quiet (by simp)

theorem effect_changed {uri : Uri} {name : String} {version : Int} {edits : List Edit}
    (h : read name = some uri) :
    Effect read s (.changed name version edits) (s.changed uri version edits).1
      (s.changed uri version edits).2 := by
  unfold changed
  split
  · rename_i store hstore
    obtain ⟨d, hd, hnow⟩ := Store.document?_of_change? hstore
    have hself := hnow uri.text
    rw [if_pos rfl] at hself
    dsimp only
    rw [report_eq (by exact hself)]
    exact .reported h hnow fun _ => .inl (by simp [hd])
  · exact .quiet (by simp)

theorem effect_saved {uri : Uri} {name : String} (h : read name = some uri) :
    Effect read s (.saved name) s (s.report uri) := by
  cases hd : s.store.document? uri.text with
  | none =>
    have hreport : s.report uri = [] := by simp [report, hd]
    rw [hreport]
    exact .quiet (by simp)
  | some d =>
    have habout : (Notification.saved name).uri? read = some uri := h
    rw [report_eq hd]
    refine .reported habout (fun key => ?_) fun _ => .inl (by simp [hd])
    split
    · rename_i hkey
      rw [hkey, hd]
    · rfl

theorem effect_closed {uri : Uri} {name : String} (h : read name = some uri) :
    Effect read s (.closed name) (s.closed uri).1 (s.closed uri).2 := by
  unfold closed
  split
  · rename_i store hstore
    have habout : (Notification.closed name).uri? read = some uri := h
    exact .reported habout (Store.document?_of_close? hstore) fun hnone => absurd rfl hnone
  · exact .quiet (by simp)

/-- What happens for a valid name has its effect; without one nothing happens. -/
theorem effect_about {name : String} {f : Uri → Session × List Announcement}
    (h : ∀ uri, read name = some uri → Effect read s n (f uri).1 (f uri).2) :
    Effect read s n (s.about read name f).1 (s.about read name f).2 := by
  unfold about
  split
  · rename_i uri huri
    exact h uri huri
  · exact .quiet (by simp)

/-- **What a notice does.** -/
theorem effect_tell (read : ReadName) (s : Session) (n : Notification) :
    Effect read s n (s.tell read n).1 (s.tell read n).2 := by
  unfold tell
  split
  · exact .quiet (by simp)
  · cases n with
    | initialized => exact .quiet (by simp [Announcement.report?])
    | opened name language version text => exact effect_about fun uri h => effect_opened h
    | changed name version edits => exact effect_about fun uri h => effect_changed h
    | saved name => exact effect_about fun uri h => effect_saved h
    | closed name => exact effect_about fun uri h => effect_closed h

/-- A notice does not end a session. -/
theorem ended_tell (read : ReadName) (s : Session) (n : Notification) :
    (s.tell read n).1.ended = s.ended := by
  have habout {name : String} {f : Uri → Session × List Announcement}
      (h : ∀ uri, (f uri).1.ended = s.ended) : (s.about read name f).1.ended = s.ended := by
    unfold about
    split
    · exact h _
    · rfl
  unfold tell
  split
  · rfl
  · cases n with
    | initialized => rfl
    | opened _ _ _ _ =>
      refine habout fun uri => ?_
      unfold opened
      split <;> rfl
    | changed _ _ _ =>
      refine habout fun uri => ?_
      unfold changed
      split <;> rfl
    | saved _ => exact habout fun uri => rfl
    | closed _ =>
      refine habout fun uri => ?_
      unfold closed
      split <;> rfl

/-- A notice about another document leaves the document as it is, and nothing is sent for it. -/
theorem Effect.elsewhere (h : Effect read s n next more) {key : String}
    (hkey : ∀ uri, n.uri? read = some uri → uri.text ≠ key) :
    next.store.document? key = s.store.document? key ∧ ∀ a ∈ more, a.report? key = none := by
  cases h with
  | quiet silent => exact ⟨rfl, fun a ha => silent a ha key⟩
  | reported about now origin =>
    have hne := hkey _ about
    rw [now key, if_neg (Ne.symm hne)]
    simp [Announcement.report?, hne]

theorem tell_opened {name : String} {uri : Uri} (hended : s.ended = false)
    (h : read name = some uri) (language : String) (version : Int) (text : String) :
    s.tell read (.opened name language version text) = s.opened uri language version text := by
  have habout : s.about read name (fun uri => s.opened uri language version text) =
      s.opened uri language version text := by
    unfold about
    rw [h]
  unfold tell
  rw [if_neg (by simp [hended])]
  exact habout

/-- What is no theme file is passed over. -/
theorem opened_of_not_theme {uri : Uri} {language : String} (hlanguage : language ≠ languageName)
    (hpath : isThemeFile uri.path = false) (version : Int) (text : String) :
    s.opened uri language version text = (s, []) := by
  unfold opened
  rw [if_neg (by simp [hlanguage, hpath])]

/-! ## What was sent last -/

/-- The last report on every document is the one that fits what is open now; on a document that is
not open there may be none. -/
def UpToDate (s : Session) (sent : List Announcement) : Prop :=
  ∀ key, lastReport? key sent = some (fittingReport (s.store.document? key)) ∨
    s.store.document? key = none ∧ lastReport? key sent = none

theorem lastReport?_append_of_none {key : String} (sent : List Announcement)
    (h : ∀ a ∈ more, a.report? key = none) :
    lastReport? key (sent ++ more) = lastReport? key sent := by
  have hnone : more.filterMap (Announcement.report? key) = [] := by
    simpa [List.filterMap_eq_nil_iff] using h
  unfold lastReport?
  rw [List.filterMap_append, hnone, List.append_nil]

theorem lastReport?_concat (sent : List Announcement) (uri : Uri) (version : Option Int)
    (shown : List Notice) :
    lastReport? uri.text (sent ++ [.diagnostics uri version shown]) = some (version, shown) := by
  unfold lastReport?
  rw [List.filterMap_append]
  simp [Announcement.report?]

theorem upToDate_start : UpToDate start [] := fun _ => .inr ⟨rfl, rfl⟩

/-- **A notice keeps the reports up to date.** -/
theorem UpToDate.tell (h : s.UpToDate sent) (read : ReadName) (n : Notification) :
    (s.tell read n).1.UpToDate (sent ++ (s.tell read n).2) := by
  have heffect := s.effect_tell read n
  generalize (s.tell read n).1 = next, (s.tell read n).2 = more at heffect
  intro key
  by_cases hkey : ∀ uri, n.uri? read = some uri → uri.text ≠ key
  · obtain ⟨hdocument, hsilent⟩ := heffect.elsewhere hkey
    rw [hdocument, lastReport?_append_of_none sent hsilent]
    exact h key
  · cases heffect with
    | quiet silent =>
      rw [lastReport?_append_of_none sent fun a ha => silent a ha key]
      exact h key
    | @reported next uri document about now origin =>
      -- the notice is about this document, and what it settles is what it reports
      obtain rfl : uri.text = key := by
        apply Decidable.of_not_not
        intro hne
        apply hkey
        intro uri' h'
        rw [about] at h'
        cases h'
        exact hne
      rw [now, if_pos rfl, lastReport?_concat]
      exact .inl rfl

/-! ## All messages -/

theorem UpToDate.run (h : s.UpToDate sent) (read : ReadName) (messages : List Message) :
    (s.run read messages).1.UpToDate (sent ++ (s.run read messages).2) := by
  induction messages generalizing s sent with
  | nil => simpa [Session.run] using h
  | cons m messages ih =>
    rw [Session.run, ← List.append_assoc]
    refine ih ?_
    cases m with
    | notice n => exact h.tell read n
    | question name question => simpa [handle] using h

theorem ended_run (read : ReadName) (s : Session) (messages : List Message) :
    (s.run read messages).1.ended = s.ended := by
  induction messages generalizing s with
  | nil => rfl
  | cons m messages ih =>
    rw [run, ih]
    cases m with
    | notice n => exact s.ended_tell read n
    | question name question => rfl

/-- **Questions change nothing**: without them a session takes the same course. -/
theorem run_notices (read : ReadName) (s : Session) (messages : List Message) :
    s.run read (messages.filter Message.isNotice) = s.run read messages := by
  induction messages generalizing s with
  | nil => rfl
  | cons m messages ih =>
    cases m with
    | notice n => rw [List.filter_cons_of_pos rfl, run, run, ih]
    | question name question =>
      rw [List.filter_cons_of_neg (by simp [Message.isNotice]), ih]
      rfl

/-- A document that is open was so from the beginning, or it was opened as a theme file. -/
theorem origin_run {messages : List Message} {key : String}
    (h : (s.run read messages).1.store.document? key ≠ none) :
    s.store.document? key ≠ none ∨
      ∃ n uri, .notice n ∈ messages ∧ n.Opens read uri ∧ uri.text = key := by
  induction messages generalizing s with
  | nil => exact .inl h
  | cons m messages ih =>
    rcases ih h with hopen | ⟨n, uri, hn, hopens⟩
    · cases m with
      | question name question => exact .inl hopen
      | notice n =>
        have heffect := s.effect_tell read n
        change (s.tell read n).1.store.document? key ≠ none at hopen
        generalize (s.tell read n).1 = next, (s.tell read n).2 = more at heffect hopen
        cases heffect with
        | quiet silent => exact .inl hopen
        | @reported next uri document about now origin =>
          rw [now] at hopen
          split at hopen
          · rename_i hkey
            subst hkey
            exact (origin hopen).imp id fun hopens => ⟨n, uri, List.mem_cons_self, hopens, rfl⟩
          · exact .inl hopen
    · exact .inr ⟨n, uri, List.mem_cons_of_mem m hn, hopens⟩

/-- A question about an open document is answered from its text. -/
theorem ask_eq {name : String} {uri : Uri} (hended : s.ended = false)
    (h : read name = some uri) (question : Question) :
    s.ask read name question = .ok (match s.store.document? uri.text with
      | some d => d.answer uri question
      | none => question.unanswered) := by
  unfold ask
  rw [hended, h]
  dsimp only
  cases s.store.document? uri.text <;> rfl

/-- A session that has just begun has one document after it is opened. -/
theorem tell_opened_start {name : String} {uri : Uri} (h : read name = some uri)
    (version : Int) (text : String) :
    (start.tell read (.opened name languageName version text)).1 =
      ⟨[(uri.text, ⟨version, text⟩)], false⟩ := by
  rw [tell_opened rfl h]
  rfl

/-- How a session goes in which the messages have been handled one after the other. -/
structure Conduct (read : ReadName) (messages : List Message) : Prop where
  /-- The last report on an open document is on its present text, under its present version. -/
  shown : ∀ key d, (start.run read messages).1.store.document? key = some d →
    lastReport? key (start.run read messages).2 =
      some (some d.version, notices d (Analysis.ofSource .standard d.text))
  /-- The last report on a document that is not open, if there is one, is empty. -/
  cleared : ∀ key, (start.run read messages).1.store.document? key = none →
    lastReport? key (start.run read messages).2 = none ∨
      lastReport? key (start.run read messages).2 = some (none, [])
  /-- The next notice does nothing to a document that it is not about. -/
  elsewhere : ∀ n key, (∀ uri, n.uri? read = some uri → uri.text ≠ key) →
    ((start.run read messages).1.tell read n).1.store.document? key =
        (start.run read messages).1.store.document? key ∧
      ∀ a ∈ ((start.run read messages).1.tell read n).2, a.report? key = none
  /-- Only theme files are opened. -/
  opened : ∀ key, (start.run read messages).1.store.document? key ≠ none →
    ∃ n uri, .notice n ∈ messages ∧ n.Opens read uri ∧ uri.text = key
  /-- What is no theme file is passed over when it is opened. -/
  ignored : ∀ name uri language version text, read name = some uri →
    language ≠ languageName → isThemeFile uri.path = false →
    (start.run read messages).1.tell read (.opened name language version text) =
      ((start.run read messages).1, [])
  /-- The questions among the messages have changed nothing. -/
  questions : start.run read (messages.filter Message.isNotice) = start.run read messages
  /-- A question about an open document is answered as in a session in which nothing but this has
  happened that the document was opened with its present text, under any version. -/
  answered : ∀ name uri d version question, read name = some uri →
    (start.run read messages).1.store.document? uri.text = some d →
    (start.run read messages).1.ask read name question =
      (start.tell read (.opened name languageName version d.text)).1.ask read name question
  /-- A question about any other document has the empty answer. -/
  unanswered : ∀ name uri question, read name = some uri →
    (start.run read messages).1.store.document? uri.text = none →
    (start.run read messages).1.ask read name question = .ok question.unanswered

/-- **No session ever shows what is out of date**, whatever messages have been handled. -/
theorem never_stale (read : ReadName) (messages : List Message) : Conduct read messages := by
  have hended : (start.run read messages).1.ended = false := ended_run read start messages
  have hreports := upToDate_start.run read messages
  rw [List.nil_append] at hreports
  constructor
  case shown =>
    intro key d hd
    rcases hreports key with hlast | ⟨hnone, -⟩
    · rw [hlast, hd]
      rfl
    · rw [hnone] at hd
      cases hd
  case cleared =>
    intro key hnone
    rcases hreports key with hlast | ⟨-, hlast⟩
    · rw [hlast, hnone]
      exact .inr rfl
    · exact .inl hlast
  case elsewhere => exact fun n key hkey => (effect_tell read _ n).elsewhere hkey
  case opened =>
    intro key hopen
    rcases origin_run hopen with hstart | horigin
    · exact absurd rfl hstart
    · exact horigin
  case ignored =>
    intro name uri language version text h hlanguage hpath
    rw [tell_opened hended h, opened_of_not_theme hlanguage hpath]
  case questions => exact run_notices read start messages
  case answered =>
    intro name uri d version question h hd
    rw [ask_eq hended h, tell_opened_start h, ask_eq rfl h, hd]
    cases question <;> simp [Store.document?, Entries.get?] <;> rfl
  case unanswered =>
    intro name uri question h hnone
    rw [ask_eq hended h, hnone]

/-- Two documents are opened, of which one is a theme by its language; it is changed, looked at and
saved, and another one is opened and closed. -/
def twoDocuments : List Message :=
  [.notice (.opened "file:///dawn" languageName 1 "palette \x7b\n\x7d\n"),
    .notice (.opened "file:///notes.txt" "plaintext" 1 "palette"),
    .question "file:///dawn" .swatches,
    .notice (.changed "file:///dawn" 2 [⟨some ⟨⟨1, 0⟩, ⟨1, 0⟩⟩, "  a = ~\n"⟩]),
    .notice (.opened "file:///Dusk.tint" "plaintext" 1 "theme"),
    .notice (.saved "file:///dawn"),
    .notice (.closed "file:///Dusk.tint")]

theorem never_stale_twoDocuments :
    Conduct Uri.ofString? twoDocuments ∧
      (start.run Uri.ofString? twoDocuments).1.store.document? "file:///dawn" =
        some ⟨2, "palette \x7b\n  a = ~\n\x7d\n"⟩ ∧
      ((lastReport? "file:///dawn" (start.run Uri.ofString? twoDocuments).2).map fun report =>
        (report.1, report.2.length)) = some (some 2, 1) ∧
      (start.run Uri.ofString? twoDocuments).1.store.document? "file:///Dusk.tint" = none ∧
      lastReport? "file:///Dusk.tint" (start.run Uri.ofString? twoDocuments).2 = some (none, []) ∧
      Uri.ofString? "file:///notes.txt" = some ⟨"file:///notes.txt", "/notes.txt"⟩ ∧
      isThemeFile "/notes.txt" = false :=
  ⟨never_stale Uri.ofString? twoDocuments, by decide +kernel, by decide +kernel,
    by decide +kernel, by decide +kernel, by decide +kernel, by decide +kernel⟩

end Session

end ColorTheme

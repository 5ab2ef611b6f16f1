import ColorTheme.Editor.Completion
import ColorTheme.Editor.Feature
import ColorTheme.Editor.Highlight
import ColorTheme.Editor.Store
import ColorTheme.Uri

/-!
# Sessions with an editor

A session keeps the open documents.  The editor tells what happens to them and asks about them;
every question is answered from the text as it is then, and nothing else is remembered.

* `Session.tell` takes a notice of the editor and says what is sent back for it: the diagnostics
  of a document whenever its text may have changed, and none when it is closed.
* `Session.ask` answers a question; that changes nothing.
* Once a session is over, notices have no effect and questions are refused.
* How names are read is a parameter; `Uri.ofString?` reads them as editors write them.
-/

set_option autoImplicit false

namespace ColorTheme

/-- The name of the language among those that an editor knows. -/
def languageName : String := "tint"

/-- The ending of the names of theme files. -/
def fileEnding : String := ".tint"

/-- The path names a theme file. -/
def isThemeFile (path : String) : Bool := path.endsWith fileEnding

/-- The features that an editor is told of, and the signs behind which it asks for completion. -/
structure Capabilities where
  openClose : Bool
  incrementalChanges : Bool
  willSave : Bool
  willSaveWaitUntil : Bool
  saveIncludesText : Bool
  hover : Bool
  definition : Bool
  colors : Bool
  resolvesCompletion : Bool
  triggers : List String
  fullHighlights : Bool
  rangeHighlights : Bool
deriving Repr, DecidableEq

/-- What the server can do. -/
def Capabilities.server : Capabilities :=
  { openClose := true, incrementalChanges := true, willSave := false, willSaveWaitUntil := false
    saveIncludesText := false, hover := true, definition := true, colors := true
    resolvesCompletion := false, triggers := [".", "="], fullHighlights := true
    rangeHighlights := false }

/-- The name of the server. -/
def serverName : String := "tint-lsp"

/-- The version of the server. -/
def serverVersion : String := "0.2.0"

/-- What an editor tells: that it is ready, or what happens to a document. -/
inductive Notification
  | initialized
  | opened (name : String) (language : String) (version : Int) (text : String)
  | changed (name : String) (version : Int) (edits : List Edit)
  | saved (name : String)
  | closed (name : String)
deriving Repr

/-- What an editor asks about a document. -/
inductive Question
  | hover (position : Position)
  | definition (position : Position)
  | completion (position : Position)
  | highlights
  | swatches
  | presentation (range : Range) (color : Color)
deriving Repr

/-- The answer to a question. -/
inductive Answer
  | nothing
  | hover (shown : Hover)
  | definition (uri : Uri) (range : Range)
  | completion (offered : List Suggestion)
  | highlights (numbers : List Nat)
  | swatches (shown : List Swatch)
  | presentations (literal : Option String)
deriving Repr

/-- Why a question is not answered: the session is over, or the document has no valid name. -/
inductive Refusal
  | sessionOver
  | invalidName
deriving Repr, DecidableEq

/-- The number of a refusal in the protocol of editors. -/
def Refusal.code : Refusal → Int
  | .sessionOver => -32600
  | .invalidName => -32602

/-- What is sent to the editor without being asked for. -/
inductive Announcement
  | ready (text : String)
  | diagnostics (uri : Uri) (version : Option Int) (notices : List Notice)
deriving Repr, DecidableEq

/-- How the name of a document is read: as the document that it stands for, if it is valid. -/
abbrev ReadName := String → Option Uri

/-- The state of a session: the open documents, and whether the session is over. -/
structure Session where
  store : Store
  ended : Bool
deriving Repr

/-- The answer to a question about an open document. -/
def Document.answer (d : Document) (uri : Uri) (question : Question) : Answer :=
  let analysis := Analysis.ofSource .standard d.text
  match question with
  | .hover p => (hover? d analysis p).elim .nothing .hover
  | .definition p => (definition? .standard d analysis p).elim .nothing (.definition uri)
  | .completion p => .completion (suggestions .standard d analysis p)
  | .highlights => .highlights (encodeHighlights ⟨0, 0⟩ (ColorTheme.highlights .standard d.text))
  | .swatches => .swatches (ColorTheme.swatches d analysis)
  | .presentation range color => .presentations (presentation? d range color)

/-- The answer to a question about a document that is not open. -/
def Question.unanswered : Question → Answer
  | .swatches => .swatches []
  | .presentation _ _ => .presentations none
  | _ => .nothing

namespace Session

/-- The session before anything has happened. -/
def start : Session := ⟨[], false⟩

/-- The diagnostics of an open document, as they are sent. -/
def report (s : Session) (uri : Uri) : List Announcement :=
  match s.store.document? uri.text with
  | some d =>
    [.diagnostics uri (some d.version) (notices d (Analysis.ofSource .standard d.text))]
  | none => []

/-- The session after a document is opened.  Only theme files are looked at. -/
def opened (s : Session) (uri : Uri) (language : String) (version : Int) (text : String) :
    Session × List Announcement :=
  if language = languageName ∨ isThemeFile uri.path then
    let next : Session := { s with store := s.store.enter uri.text version text }
    (next, next.report uri)
  else (s, [])

/-- The session after edits in a document. -/
def changed (s : Session) (uri : Uri) (version : Int) (edits : List Edit) :
    Session × List Announcement :=
  match s.store.change? uri.text version edits with
  | some store =>
    let next : Session := { s with store := store }
    (next, next.report uri)
  | none => (s, [])

/-- The session after a document is closed. -/
def closed (s : Session) (uri : Uri) : Session × List Announcement :=
  match s.store.close? uri.text with
  | some store => ({ s with store := store }, [.diagnostics uri none []])
  | none => (s, [])

/-- What `f` makes of the session for a valid name; without one nothing happens. -/
def about (read : ReadName) (s : Session) (name : String)
    (f : Uri → Session × List Announcement) : Session × List Announcement :=
  match read name with
  | some uri => f uri
  | none => (s, [])

/-- The session after a notice of the editor, and what is sent for it. -/
def tell (read : ReadName) (s : Session) (notice : Notification) :
    Session × List Announcement :=
  if s.ended then (s, [])
  else
    match notice with
    | .initialized => (s, [.ready "Tint language server ready"])
    | .opened name language version text =>
      s.about read name fun uri => s.opened uri language version text
    | .changed name version edits => s.about read name fun uri => s.changed uri version edits
    | .saved name => s.about read name fun uri => (s, s.report uri)
    | .closed name => s.about read name fun uri => s.closed uri

/-- The answer to a question about a document. -/
def ask (read : ReadName) (s : Session) (name : String) (question : Question) :
    Except Refusal Answer :=
  if s.ended then .error .sessionOver
  else
    match read name with
    | none => .error .invalidName
    | some uri =>
      match s.store.document? uri.text with
      | some d => .ok (d.answer uri question)
      | none => .ok question.unanswered

/-- The session that is over; it can end only once. -/
def shutDown (s : Session) : Except Refusal Session :=
  if s.ended then .error .sessionOver else .ok { s with ended := true }

end Session

end ColorTheme

import ColorTheme.Proofs.Editor.Place
import ColorTheme.Proofs.Editor.Store
import Mathlib.Logic.Function.Basic

/-!
# The last write to a document wins

An editor opens, replaces, changes and closes documents.  What is open then is what a plain map from
names to versions and texts would hold after the same requests.

* `StoreRequest`, `Store.serveAll` : requests, served one after the other, with their answers.
* `DocumentMap.serveAll` : the same on a map, in which whatever succeeds sets text and version.
* `Edit.Rewrites` : what an edit makes of a text.
* `Store.contents_serve?` : one request that makes a write does to the store what it does to the map.
* `Store.lastWriteWins` : so does every run of requests.  A change with no edits in it is not a
  write: it is answered like any other, but the store stays at the version it had.
-/

set_option autoImplicit false

namespace ColorTheme

/-! ## Edits -/

/-- The text after an edit. -/
def Edit.rewrite (text : String) (e : Edit) : String := (⟨0, text⟩ : Document).edited e

/-- What an edit makes of a text: another text, or the same text with another part between two
places.  If one of the places does not exist, or the second stands in front of the first, the text
stays as it is. -/
inductive Edit.Rewrites (text : String) : Edit → String → Prop
  | whole (new : String) : Rewrites text ⟨none, new⟩ new
  | part {r : Range} (new : String) {before cut behind : List Char}
      (split : text.toList = before ++ cut ++ behind)
      (start : (⟨0, text⟩ : Document).charIndex? r.start = some before.length)
      (stop : (⟨0, text⟩ : Document).charIndex? r.stop = some (before ++ cut).length) :
      Rewrites text ⟨some r, new⟩ (String.ofList (before ++ new.toList ++ behind))
  | unusable {r : Range} (new : String)
      (unusable : ∀ start stop, (⟨0, text⟩ : Document).charIndex? r.start = some start →
        (⟨0, text⟩ : Document).charIndex? r.stop = some stop → stop < start) :
      Rewrites text ⟨some r, new⟩ text

/-- Every edit makes of every text what it should. -/
theorem Edit.rewrites_rewrite (text : String) (e : Edit) : e.Rewrites text (e.rewrite text) := by
  obtain ⟨range, new⟩ := e
  unfold rewrite Document.edited
  cases range with
  | none => exact .whole new
  | some r =>
    dsimp only
    split
    · rename_i start stop hstart hstop
      split
      · rename_i hle
        have hlength : stop ≤ text.toList.length := Document.le_length_of_charIndex? hstop
        have hbefore := List.length_take_of_le (Nat.le_trans hle hlength)
        have hcut : text.toList = (text.toList.take start ++ (text.toList.take stop).drop start) ++
            text.toList.drop stop := by
          have htake : (text.toList.take stop).take start = text.toList.take start := by
            rw [List.take_take, Nat.min_eq_left hle]
          rw [← htake, List.take_append_drop, List.take_append_drop]
        have htotal := congrArg List.length hcut
        rw [List.length_append, List.length_drop] at htotal
        have hbehind : (text.toList.take start ++ (text.toList.take stop).drop start).length =
            stop := by
          omega
        have hfrom := hstart.trans (congrArg some hbefore.symm)
        exact .part new hcut hfrom (hstop.trans (congrArg some hbehind.symm))
      · rename_i hlt
        refine .unusable new ?_
        intro i j hi hj
        obtain rfl := Option.some.inj (hi.symm.trans hstart)
        obtain rfl := Option.some.inj (hj.symm.trans hstop)
        exact Nat.lt_of_not_le hlt
    · rename_i hnone
      refine .unusable new ?_
      intro i j hi hj
      exact absurd hj (hnone i j hi)

/-- Edits one after the other, of which the last has set the version. -/
theorem Document.foldl_apply {version : Int} {edits : List Edit} (hedits : edits ≠ [])
    (d : Document) : edits.foldl (fun d e => d.apply version e) d =
      ⟨version, edits.foldl (fun text e => e.rewrite text) d.text⟩ := by
  induction edits generalizing d with
  | nil => exact absurd rfl hedits
  | cons e edits ih =>
    rw [List.foldl_cons, List.foldl_cons]
    by_cases hlast : edits = []
    · rw [hlast]
      rfl
    · exact ih hlast (d.apply version e)

/-! ## Requests -/

/-- The version and the text under each name. -/
abbrev DocumentMap := String → Option (Int × String)

/-- What an editor asks of the open documents. -/
inductive StoreRequest where
  | enter (name : String) (version : Int) (text : String)
  | update (name : String) (version : Int) (text : String)
  | change (name : String) (version : Int) (edits : List Edit)
  | close (name : String)
deriving Repr, DecidableEq

namespace StoreRequest

/-- The document a request is about. -/
def name : StoreRequest → String
  | enter name _ _ => name
  | update name _ _ => name
  | change name _ _ => name
  | close name => name

/-- The request is a change without any edit in it. -/
def isIdle : StoreRequest → Bool
  | change _ _ edits => edits.isEmpty
  | _ => false

/-- What should be under the name of a request after it, if what it changes or closes is there. -/
def leaves? (entry : Option (Int × String)) : StoreRequest → Option (Option (Int × String))
  | enter _ version text => some (some (version, text))
  | update _ version text => some (some (version, text))
  | change _ version edits => entry.map fun old =>
    some (version, edits.foldl (fun text e => e.rewrite text) old.2)
  | close _ => entry.map fun _ => none

end StoreRequest

/-- The store after a request, unless what should be changed or closed is not open. -/
def Store.serve? (store : Store) : StoreRequest → Option Store
  | .enter name version text => some (store.enter name version text)
  | .update name version text => some (store.update name version text)
  | .change name version edits => store.change? name version edits
  | .close name => store.close? name

/-- The store after requests that are served one after the other, and which of them could be served.
The others leave it as it is. -/
def Store.serveAll (store : Store) : List StoreRequest → Store × List Bool
  | [] => (store, [])
  | r :: requests =>
    let rest := ((store.serve? r).getD store).serveAll requests
    (rest.1, (store.serve? r).isSome :: rest.2)

namespace DocumentMap

/-- The map after a request, unless what should be changed or closed is not there. -/
def serve? (map : DocumentMap) (r : StoreRequest) : Option DocumentMap :=
  (r.leaves? (map r.name)).map (Function.update map r.name)

/-- The map after requests that are served one after the other, and which of them could be served.
The others leave it as it is. -/
def serveAll (map : DocumentMap) : List StoreRequest → DocumentMap × List Bool
  | [] => (map, [])
  | r :: requests =>
    let rest := ((map.serve? r).getD map).serveAll requests
    (rest.1, (map.serve? r).isSome :: rest.2)

/-- The text under a name, without its version. -/
def text? (map : DocumentMap) (name : String) : Option String := (map name).map Prod.snd

variable {map other : DocumentMap} {name : String} {r a b : StoreRequest}

theorem isSome_serve? (map : DocumentMap) (r : StoreRequest) :
    (map.serve? r).isSome = (r.leaves? (map r.name)).isSome := by
  unfold serve?
  rw [Option.isSome_map]

/-- What is under each name after a request. -/
theorem getD_serve? (map : DocumentMap) (r : StoreRequest) :
    (map.serve? r).getD map =
      Function.update map r.name ((r.leaves? (map r.name)).getD (map r.name)) := by
  unfold serve?
  cases r.leaves? (map r.name) with
  | none => exact (Function.update_eq_self r.name map).symm
  | some entry => rfl

/-- Requests for different names can be served in either order. -/
theorem serveAll_comm (h : a.name ≠ b.name) (map : DocumentMap) :
    (map.serveAll [a, b]).1 = (map.serveAll [b, a]).1 ∧
      (map.serveAll [a, b]).2 = (map.serveAll [b, a]).2.reverse := by
  simp only [serveAll, isSome_serve?, getD_serve?, Function.update_of_ne h,
    Function.update_of_ne h.symm]
  exact ⟨Function.update_comm h _ _ _, rfl⟩

theorem text?_update (map : DocumentMap) (name : String) (entry : Option (Int × String)) :
    text? (Function.update map name entry) =
      Function.update map.text? name (entry.map Prod.snd) :=
  Function.comp_update (fun entry => Option.map Prod.snd entry) map name entry

/-- The text that a request leaves under its name, if any, depends on the text there alone. -/
theorem leaves?_texts {entry old : Option (Int × String)} (r : StoreRequest)
    (h : entry.map Prod.snd = old.map Prod.snd) :
    (r.leaves? entry).map (Option.map Prod.snd) = (r.leaves? old).map (Option.map Prod.snd) := by
  cases r with
  | enter => rfl
  | update => rfl
  | change name version edits =>
    have htexts (entry : Option (Int × String)) :
        ((StoreRequest.change name version edits).leaves? entry).map (Option.map Prod.snd) =
          (entry.map Prod.snd).map fun text =>
            some (edits.foldl (fun text e => e.rewrite text) text) := by
      unfold StoreRequest.leaves?
      rw [Option.map_map, Option.map_map]
      rfl
    rw [htexts, htexts, h]
  | close name =>
    have htexts (entry : Option (Int × String)) :
        ((StoreRequest.close name).leaves? entry).map (Option.map Prod.snd) =
          (entry.map Prod.snd).map fun _ => none := by
      unfold StoreRequest.leaves?
      rw [Option.map_map, Option.map_map]
      rfl
    rw [htexts, htexts, h]

/-- What is under a name after a request depends on what is there before it. -/
theorem getD_serve?_apply (h : map name = other name) (r : StoreRequest) :
    (map.serve? r).getD map name = (other.serve? r).getD other name := by
  rw [getD_serve?, getD_serve?]
  by_cases hname : name = r.name
  · rw [← hname, Function.update_self, Function.update_self, h]
  · rw [Function.update_of_ne hname, Function.update_of_ne hname, h]

/-- What is under a name after a run does not depend on the idle changes of other documents. -/
theorem serveAll_apply {requests : List StoreRequest} (h : map name = other name)
    (hidle : ∀ r ∈ requests, r.isIdle = true → r.name ≠ name) :
    (map.serveAll (requests.filter fun r => !r.isIdle)).1 name =
      (other.serveAll requests).1 name := by
  induction requests generalizing map other with
  | nil => exact h
  | cons r requests ih =>
    rw [List.forall_mem_cons] at hidle
    cases hr : r.isIdle with
    | false =>
      rw [List.filter_cons_of_pos (by rw [hr]; rfl), serveAll, serveAll]
      exact ih (getD_serve?_apply h r) hidle.2
    | true =>
      rw [List.filter_cons_of_neg (by rw [hr]; decide), serveAll]
      refine ih ?_ hidle.2
      rw [h, getD_serve?, Function.update_of_ne (hidle.1 hr).symm]

/-- The texts after a request depend on the texts before it alone. -/
theorem text?_serve? (h : map.text? = other.text?) (r : StoreRequest) :
    (map.serve? r).map text? = (other.serve? r).map text? := by
  have hserve (map : DocumentMap) : (map.serve? r).map text? =
      ((r.leaves? (map r.name)).map (Option.map Prod.snd)).map
        (Function.update map.text? r.name) := by
    unfold serve?
    rw [Option.map_map, Option.map_map]
    congr 1
    funext entry
    exact text?_update map r.name entry
  have hname : (map r.name).map Prod.snd = (other r.name).map Prod.snd := congrFun h r.name
  rw [hserve, hserve, leaves?_texts r hname, h]

/-- A change without edits leaves all texts as they are. -/
theorem text?_serve?_of_isIdle (h : r.isIdle = true) (map : DocumentMap) :
    (map.serve? r).map text? = (map r.name).map fun _ => map.text? := by
  cases r with
  | change name version edits =>
    obtain rfl : edits = [] := List.isEmpty_iff.1 h
    unfold serve? StoreRequest.leaves?
    cases hname : map name with
    | none => simp [StoreRequest.name, hname]
    | some old =>
      have hself : map.text? name = some old.2 := congrArg (Option.map Prod.snd) hname
      simp [StoreRequest.name, hname, text?_update, ← hself]
  | enter => cases h
  | update => cases h
  | close => cases h

end DocumentMap

/-! ## The store against the map -/

namespace Store

/-- What is open, as a map. -/
def contents (store : Store) : DocumentMap := fun name =>
  (store.document? name).map fun d => (d.version, d.text)

variable {store next : Store} {name : String} {version : Int} {edits : List Edit}
  {r a b : StoreRequest} {map : DocumentMap} {requests : List StoreRequest}

theorem contents_put (store : Store) (name : String) (d : Document) :
    contents (store.put name d) = Function.update store.contents name (some (d.version, d.text)) := by
  funext key
  unfold contents
  rw [document?_put]
  by_cases hkey : key = name
  · rw [if_pos hkey, hkey, Function.update_self]
    rfl
  · rw [if_neg hkey, Function.update_of_ne hkey]

/-- Replacing a text does the same as opening the document anew. -/
theorem update_eq_enter (store : Store) (name : String) (version : Int) (text : String) :
    store.update name version text = store.enter name version text := by
  unfold update
  split
  · rfl
  · rfl

theorem contents_of_close? (h : store.close? name = some next) :
    next.contents = Function.update store.contents name none := by
  funext key
  unfold contents
  rw [document?_of_close? h]
  by_cases hkey : key = name
  · rw [if_pos hkey, hkey, Function.update_self]
    rfl
  · rw [if_neg hkey, Function.update_of_ne hkey]

/-- **One request that is not an idle change**: the store becomes what the map becomes. -/
theorem contents_serve? (h : r.isIdle = false) (store : Store) :
    (store.serve? r).map contents = store.contents.serve? r := by
  cases r with
  | enter name version text => exact congrArg some (contents_put store name ⟨version, text⟩)
  | update name version text =>
    rw [serve?, update_eq_enter]
    exact congrArg some (contents_put store name ⟨version, text⟩)
  | change name version edits =>
    have hedits : edits ≠ [] := List.isEmpty_eq_false_iff.1 h
    unfold serve? change? DocumentMap.serve? StoreRequest.leaves? contents
    dsimp only [StoreRequest.name]
    cases hd : store.document? name with
    | none => rfl
    | some d =>
      dsimp only [Option.map_some]
      rw [Document.foldl_apply hedits]
      exact congrArg some (contents_put store name _)
  | close name =>
    unfold serve? DocumentMap.serve? StoreRequest.leaves?
    dsimp only [StoreRequest.name]
    cases hclose : store.close? name with
    | none =>
      have hd : store.document? name = none := Option.map_eq_none_iff.1 hclose
      simp [contents, hd]
    | some next =>
      obtain ⟨d, hd, -⟩ := Option.map_eq_some_iff.1 hclose
      simp [contents_of_close? hclose, contents, hd]

/-- **One idle change** is served if the document is open, and leaves all as it is. -/
theorem contents_serve?_of_isIdle (h : r.isIdle = true) (store : Store) :
    (store.serve? r).map contents = (store.contents r.name).map fun _ => store.contents := by
  cases r with
  | change name version edits =>
    obtain rfl : edits = [] := List.isEmpty_iff.1 h
    have hself (d : Document) (hd : store.document? name = some d) :
        contents (store.put name d) = store.contents := by
      have hentry : store.contents name = some (d.version, d.text) :=
        congrArg (Option.map fun d : Document => (d.version, d.text)) hd
      rw [contents_put, ← hentry, Function.update_eq_self]
    change ((store.document? name).map (store.put name)).map contents =
      ((store.document? name).map fun d => (d.version, d.text)).map fun _ => store.contents
    rw [Option.map_map, Option.map_map]
    exact Option.map_congr hself
  | enter => cases h
  | update => cases h
  | close => cases h

/-! ## Runs of requests -/

theorem contents_getD_serve? (store : Store) (r : StoreRequest) :
    ((store.serve? r).getD store).contents =
      ((store.serve? r).map contents).getD store.contents :=
  (Option.getD_map contents store (store.serve? r)).symm

/-- **A run, but for its idle changes**: the store becomes what the map becomes. -/
theorem contents_serveAll (requests : List StoreRequest) (store : Store) :
    (store.serveAll requests).1.contents =
      (store.contents.serveAll (requests.filter fun r => !r.isIdle)).1 := by
  induction requests generalizing store with
  | nil => rfl
  | cons r requests ih =>
    rw [serveAll, ih, contents_getD_serve?]
    cases hidle : r.isIdle with
    | false =>
      rw [contents_serve? hidle, List.filter_cons_of_pos (by rw [hidle]; rfl),
        DocumentMap.serveAll]
    | true =>
      rw [contents_serve?_of_isIdle hidle, List.filter_cons_of_neg (by rw [hidle]; decide)]
      cases store.contents r.name with
      | none => rfl
      | some entry => rfl

/-- One request of any kind does the same to the texts of the store and of a map. -/
theorem text?_contents_serve? (h : store.contents.text? = map.text?) (r : StoreRequest) :
    ((store.serve? r).map contents).map DocumentMap.text? =
      (map.serve? r).map DocumentMap.text? := by
  cases hidle : r.isIdle with
  | false =>
    rw [contents_serve? hidle]
    exact DocumentMap.text?_serve? h r
  | true =>
    have hopen : (store.contents r.name).map Prod.snd = (map r.name).map Prod.snd :=
      congrFun h r.name
    have hconst := congrArg (Option.map fun _ => map.text?) hopen
    rw [Option.map_map, Option.map_map] at hconst
    rw [contents_serve?_of_isIdle hidle, DocumentMap.text?_serve?_of_isIdle hidle, Option.map_map]
    exact (congrArg (fun texts => (store.contents r.name).map fun _ => texts) h).trans hconst

/-- **Every run** leaves the texts that it leaves in the map, and is answered in the same way. -/
theorem text?_contents_serveAll (h : store.contents.text? = map.text?)
    (requests : List StoreRequest) :
    (store.serveAll requests).1.contents.text? = (map.serveAll requests).1.text? ∧
      (store.serveAll requests).2 = (map.serveAll requests).2 := by
  induction requests generalizing store map with
  | nil => exact ⟨h, rfl⟩
  | cons r requests ih =>
    have hstep := text?_contents_serve? h r
    have hanswer : (store.serve? r).isSome = (map.serve? r).isSome := by
      have hsome := congrArg Option.isSome hstep
      rwa [Option.isSome_map, Option.isSome_map, Option.isSome_map] at hsome
    have hnext : ((store.serve? r).getD store).contents.text? =
        ((map.serve? r).getD map).text? := by
      have htexts := congrArg (fun texts? => Option.getD texts? map.text?) hstep
      rwa [← h, Option.getD_map, ← contents_getD_serve?, h, Option.getD_map] at htexts
    obtain ⟨htexts, hanswers⟩ := ih hnext
    rw [serveAll, DocumentMap.serveAll, hanswer]
    exact ⟨htexts, congrArg _ hanswers⟩

/-- Requests for different names can be served in either order. -/
theorem serveAll_comm (h : a.name ≠ b.name) (store : Store) :
    (store.serveAll [a, b]).1.contents = (store.serveAll [b, a]).1.contents ∧
      (store.serveAll [a, b]).2 = (store.serveAll [b, a]).2.reverse := by
  have hanswers (requests : List StoreRequest) :=
    (text?_contents_serveAll (Eq.refl store.contents.text?) requests).2
  obtain ⟨hmap, hreverse⟩ := DocumentMap.serveAll_comm h store.contents
  constructor
  · rw [contents_serveAll, contents_serveAll]
    cases ha : a.isIdle with
    | false =>
      cases hb : b.isIdle with
      | false => simpa [ha, hb] using hmap
      | true => simp [ha, hb]
    | true =>
      cases hb : b.isIdle with
      | false => simp [ha, hb]
      | true => simp [ha, hb]
  · rw [hanswers, hanswers, hreverse]

/-- What holds of the documents that are open in a store, whatever an editor asks. -/
structure LastWriteWins (store : Store) : Prop where
  /-- An edit makes of a text what it should. -/
  edits : ∀ text e, Edit.Rewrites text e (e.rewrite text)
  /-- All that is open after a run is what the map has after it, idle changes left out. -/
  writes : ∀ requests, (store.serveAll requests).1.contents =
    (store.contents.serveAll (requests.filter fun r => !r.isIdle)).1
  /-- Where no idle change was asked for, this is what the map has after the whole run. -/
  entries : ∀ requests name, (∀ r ∈ requests, r.isIdle = true → r.name ≠ name) →
    (store.serveAll requests).1.contents name = (store.contents.serveAll requests).1 name
  /-- The texts are those of the map after the whole run, without an exception. -/
  texts : ∀ requests,
    (store.serveAll requests).1.contents.text? = (store.contents.serveAll requests).1.text?
  /-- So are the answers. -/
  answers : ∀ requests,
    (store.serveAll requests).2 = (store.contents.serveAll requests).2
  /-- A change or a request to close is refused if and only if there is no such document. -/
  refused : ∀ name, store.contents name = none ↔
    (∀ version edits, store.serve? (.change name version edits) = none) ∧
      store.serve? (.close name) = none
  /-- After a change with edits the document has its version. -/
  version : ∀ next name version edits, edits ≠ [] →
    store.serve? (.change name version edits) = some next →
      ∃ text, next.contents name = some (version, text)
  /-- After a change without edits the document has the version that it had before. -/
  idle : ∀ next name version,
    store.serve? (.change name version []) = some next → next.contents = store.contents
  /-- Requests for different documents can be served in either order. -/
  commute : ∀ a b : StoreRequest, a.name ≠ b.name →
    (store.serveAll [a, b]).1.contents = (store.serveAll [b, a]).1.contents ∧
      (store.serveAll [a, b]).2 = (store.serveAll [b, a]).2.reverse

/-- **The last write wins**: texts and answers are those of a plain map after every run of requests,
and so are the versions, which an idle change leaves as they are. -/
theorem lastWriteWins (store : Store) : store.LastWriteWins := by
  constructor
  case edits => exact Edit.rewrites_rewrite
  case writes =>
    intro requests
    exact contents_serveAll requests store
  case entries =>
    intro requests name hidle
    rw [contents_serveAll]
    exact DocumentMap.serveAll_apply rfl hidle
  case texts =>
    intro requests
    exact (text?_contents_serveAll rfl requests).1
  case answers =>
    intro requests
    exact (text?_contents_serveAll rfl requests).2
  case refused =>
    intro name
    unfold contents serve? change? close?
    simp only [Option.map_eq_none_iff]
    constructor
    · intro h
      exact ⟨fun _ _ => h, h⟩
    · intro h
      exact h.2
  case version =>
    intro next name version edits hedits hnext
    have hidle : (StoreRequest.change name version edits).isIdle = false :=
      List.isEmpty_eq_false_iff.2 hedits
    have hmap := contents_serve? hidle store
    rw [hnext] at hmap
    obtain ⟨entry, hentry, hupdate⟩ := Option.map_eq_some_iff.1 hmap.symm
    obtain ⟨old, -, rfl⟩ := Option.map_eq_some_iff.1 hentry
    rw [← hupdate]
    exact ⟨_, Function.update_self _ _ _⟩
  case idle =>
    intro next name version hnext
    have hmap := contents_serve?_of_isIdle (r := .change name version []) rfl store
    rw [hnext] at hmap
    obtain ⟨old, -, hsame⟩ := Option.map_eq_some_iff.1 hmap.symm
    exact hsame.symm
  case commute =>
    intro a b hne
    exact serveAll_comm hne store

/-- The versions are not always those of the map: here the document is said to be in version 2. -/
theorem contents_serveAll_ne : ¬ ∀ (store : Store) requests,
    (store.serveAll requests).1.contents = (store.contents.serveAll requests).1 := by
  intro h
  have hentry := congrFun (h [] [.enter "a" 1 "x", .change "a" 2 []]) "a"
  exact absurd hentry (by decide)

end Store

end ColorTheme

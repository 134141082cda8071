import NoteSearch.Session.Basic
import NoteSearch.Workspace.Outside
import NoteSearch.Workspace.Store

/-!
# Workspaces

A workspace is a store with the sessions on it. When a document is created, all who watch are told;
each session watches for as long as it is open.
-/
namespace NoteSearch
open Search

/-- Who is told of new documents. -/
inductive Watcher where
  | session (number : Nat)
  /-- Somebody else of this name, who goes on watching if `keep` says so. -/
  | other (name : String) (keep : Bool)
  deriving Repr, DecidableEq

/-- A store, the sessions on it, and what goes on around them. -/
structure Workspace extends Outside where
  store : Store
  watchers : List Watcher := []
  /-- The sessions in the order in which they were opened; one that is closed leaves a gap. -/
  sessions : List (Option Session) := []
  /-- What others than sessions have been told: who, and of which path. -/
  created : List (String × String) := []
  /-- The paths of the documents that were opened for the user. -/
  opened : List String := []
  deriving Repr, DecidableEq

namespace Workspace

/-- The open session of a number. -/
def session? (w : Workspace) (number : Nat) : Option Session := (w.sessions[number]?).join

/-- The workspace with another state of a session. -/
def setSession (w : Workspace) (number : Nat) (s : Option Session) : Workspace :=
  { w with sessions := w.sessions.set number s }

/-- Give a session notice of a change; with whether it is open. -/
def notify (w : Workspace) (number : Nat) : Bool × Workspace :=
  match w.session? number with
  | some s => (true, w.setSession number (some s.notice))
  | none => (false, w)

/-- Open a session, which watches for new documents; with its number. -/
def openSession (w : Workspace) : Nat × Workspace :=
  let number := w.sessions.length
  (number, { w with
    sessions := w.sessions ++ [some (.ofSuggestions w.store.suggestions)]
    watchers := w.watchers ++ [.session number] })

/-- Close a session. -/
def closeSession (w : Workspace) (number : Nat) : Workspace := w.setSession number none

/-- Tell one watcher of a new document; with whether it goes on watching. -/
def tell (w : Workspace) (path : String) : Watcher → Bool × Workspace
  | .session number => w.notify number
  | .other name keep => (keep, { w with created := w.created ++ [(name, path)] })

/-- Tell watchers of a new document, and keep those that go on watching. -/
def tellAll (w : Workspace) (path : String) : List Watcher → List Watcher × Workspace
  | [] => ([], w)
  | watcher :: rest =>
    let (keep, w) := w.tell path watcher
    let (kept, w) := w.tellAll path rest
    (if keep then watcher :: kept else kept, w)

/-- Tell all watchers of a new document. -/
def publish (w : Workspace) (path : String) : Workspace :=
  let (kept, w) := w.tellAll path w.watchers
  { w with watchers := kept }

/-- Fire a notice at a session. One at the session `own`, which is busy with a run, is counted
rather than delivered. -/
def fire (w : Workspace) (own : Option Nat) (number : Nat) : Nat × Workspace :=
  if own = some number then (1, w) else (0, (w.notify number).2)

/-- Fire the notice that waits for a query. -/
def fireOnQuery (w : Workspace) (own : Option Nat) : Nat × Workspace :=
  match w.onQuery with
  | some number => { w with onQuery := none }.fire own number
  | none => (0, w)

/-- Fire the notice that waits for the body of this path. -/
def fireOnRead (w : Workspace) (own : Option Nat) (path : String) : Nat × Workspace :=
  match w.onRead with
  | some (awaited, number) =>
    if awaited == path then { w with onRead := none }.fire own number else (0, w)
  | none => (0, w)

/-- Whether sessions find that queries are answered. -/
def isAvailable (w : Workspace) : Bool :=
  match w.store, w.service with
  | .memory _, .off => false
  | _, _ => true

/-- The answer to a query. -/
def answer (w : Workspace) (query : String) : Except Vault.Fault (List Hit) :=
  match w.service with
  | .broken fault => .error fault
  | _ => w.store.catalogue.answer query

/-- What answers the queries of sessions. -/
def backend (w : Workspace) : Backend := ⟨w.isAvailable, w.answer⟩

/-- Ask a query outside of any session. -/
def query (w : Workspace) (query : String) : Except Vault.Fault (List Hit) × Workspace :=
  let (_, w) := w.fireOnQuery none
  (w.answer query, w)

/-- Read a body: the notices that this brings to the session `own`, and the outcome, if the reader
has one. -/
def readFor (w : Workspace) (own : Option Nat) (path : String) :
    Nat × Option (Except Vault.Fault String) × Workspace :=
  let (notices, w) := w.fireOnRead own path
  match w.troubles.lookup path with
  | none =>
    let (body, store) := w.store.read path
    (notices, some body, { w with store })
  | some (.fails why) => (notices, some (.error (.unreadable path why)), w)
  | some _ => (notices, none, w)

/-- Read a body outside of any session. -/
def read (w : Workspace) (path : String) : Except Vault.Fault String × Workspace :=
  let (_, body, w) := w.readFor none path
  (body.getD (.error (.interrupted path)), w)

/-- Read the bodies of candidates from an index on. Notices from readers without an outcome wait for
the next arrival, which in the end is `last`. -/
def readAll (w : Workspace) (own : Option Nat) (last : Arrival) (index waiting : Nat) :
    List Hit → List (Nat × Arrival) × Workspace
  | [] => ([(waiting, last)], w)
  | hit :: rest =>
    match w.readFor own hit.path with
    | (notices, some outcome, w) =>
      let (arrivals, w) := w.readAll own last (index + 1) 0 rest
      ((waiting + notices, .read index outcome) :: arrivals, w)
    | (notices, none, w) => w.readAll own last (index + 1) (waiting + notices) rest

/-- What will happen around a run of a request, and the workspace after it. Bodies are read only if
the run comes so far. -/
def course (w : Workspace) (own : Option Nat) (request : Request) : Course × Workspace :=
  if !w.isAvailable then ({ arrivals := fun _ => [] }, w)
  else
    let (notices, w) := w.fireOnQuery own
    match w.answer (Query.compile request.filters) with
    | .ok candidates =>
      if 0 < notices || request.filters.all (!·.isText) then
        ({ duringQuery := notices, arrivals := fun _ => [] }, w)
      else
        let last := if w.isStalled (candidates.map (·.path)) then .silence else .closed
        let (arrivals, w) := w.readAll own last 0 0 candidates
        ({ duringQuery := notices, arrivals := fun _ => arrivals }, w)
    | .error _ => ({ duringQuery := notices, arrivals := fun _ => [] }, w)

/-- Let a session do what it has to do, if anything. -/
def tick (w : Workspace) (number : Nat) (s : Session) :
    Except Session.Fault Session.Outcome × Workspace :=
  let offered := w.store.suggestions
  let (course, after) :=
    if s.isDirty then w.course (some number) s.request else ({ arrivals := fun _ => [] }, w)
  let (outcome, s) := s.tick offered w.backend course
  (outcome, after.setSession number (some s))

/-- Run a search outside of any session, under a ticket that may be cancelled already. -/
def search (w : Workspace) (request : Request) (cancelled : Bool) :
    Except Search.Fault (List Hit) :=
  let ticket := if cancelled then ({} : Version).ticket else .unlimited
  let signals : Signals := if cancelled then Signals.bump {} else {}
  let (course, _) := w.course none request
  ((run w.backend course request ticket).run.run signals).1

/-- Write a document to a vault in memory; with whether its path is new. -/
def write (w : Workspace) (path body : String) (created modified : Time.Instant) :
    Bool × Workspace :=
  match w.store with
  | .memory vault =>
    let (isNew, vault) := vault.write path body created modified
    let w := { w with store := .memory vault }
    (isNew, if isNew then w.publish path else w)
  | .folder .. => (false, w)

/-- Remove a document from a vault in memory; with whether it was there. -/
def remove (w : Workspace) (path : String) : Bool × Workspace :=
  match w.store with
  | .memory vault =>
    let (wasThere, vault) := vault.remove path
    (wasThere, { w with store := .memory vault })
  | .folder .. => (false, w)

/-- Scan a vault on disk again; with the paths that are new, of which all watchers are told. -/
def rescan (w : Workspace) : Except Vault.Fault (List String) × Workspace :=
  match w.store with
  | .memory _ => (.ok [], w)
  | .folder vault disk =>
    match vault.rescan disk with
    | .error fault => (.error fault, w)
    | .ok (created, vault) =>
      (.ok created, created.foldl publish { w with store := .folder vault disk })

/-- Change the disk under the vault, if that can be done. -/
def changeDisk (w : Workspace) (change : Disk.Tree → Except Disk.Fault Disk.Tree) : Workspace :=
  match w.store with
  | .memory _ => w
  | .folder vault disk => { w with store := .folder vault ((change disk).toOption.getD disk) }

/-- Open a document for the user; with whether there is one. -/
def openDocument (w : Workspace) (path : String) : Bool × Workspace :=
  if w.store.catalogue.contains path then (true, { w with opened := w.opened ++ [path] })
  else (false, w)

end Workspace
end NoteSearch

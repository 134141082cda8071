import NoteSearch.Search.Run
import NoteSearch.Session.Pager
import NoteSearch.Session.Selection
import NoteSearch.Suggestion.Basic

/-!
# Sessions

A session holds a selection and the hits that were last found for it. Changes only mark it stale
and raise the wanted version; a tick then does at most one run for all of them. A run that
fails or is superseded leaves the hits as they are, and one that is superseded is tried again.
-/
namespace NoteSearch
open Search

/-- What a user of a session works on. -/
structure Session where
  selection : Selection := {}
  hits : List Hit := []
  pager : Pager := .ofBatch Pager.defaultBatch
  signals : Signals := {}
  /-- The selection has changed since the last run. -/
  stale : Bool := true
  /-- How many milliseconds a run waits for a body. -/
  limit : Nat := 5000
  maxSuggestions : Nat := Suggestion.defaultMax
  deriving Repr, DecidableEq

namespace Session

/-- Why a session could not do what it was asked to. -/
inductive Fault where
  | outOfRange (fault : Selection.OutOfRange)
  | search (fault : Search.Fault)
  deriving Repr, DecidableEq

/-- The fault in words. -/
def Fault.message : Fault → String
  | .outOfRange fault => fault.message
  | .search fault => "Search failed: " ++ fault.message

/-- What a tick did. -/
inductive Outcome where
  /-- There was nothing to do. -/
  | idle
  /-- There are so many new hits. -/
  | updated (hits : Nat)
  /-- A newer version is wanted by now. -/
  | superseded
  deriving Repr, DecidableEq

/-- A session with these suggestions. -/
def ofSuggestions (suggestions : List Filter) : Session := { selection := { suggestions } }

/-- Whether the next tick has something to do. -/
def isDirty (s : Session) : Bool := s.stale || s.signals.changed

/-- The session after its selection has changed. -/
def withSelection (s : Session) (selection : Selection) : Session :=
  { s with selection, stale := true, signals := s.signals.bump }

def addFilter (s : Session) (f : Filter) : Session := s.withSelection (s.selection.add f)

/-- Remove the filter at an index; without one nothing changes. -/
def removeFilter (s : Session) (index : Nat) : Except Fault Session :=
  match s.selection.remove index with
  | .ok selection => .ok (s.withSelection selection)
  | .error fault => .error (.outOfRange fault)

def removeLastFilter (s : Session) : Session := s.withSelection s.selection.removeLast

def setFilters (s : Session) (filters : List Filter) : Session :=
  s.withSelection (s.selection.setFilters filters)

def reverseFilter (s : Session) (f : Filter) : Session := s.withSelection (s.selection.reverse f)

def setSort (s : Session) (sort : Option SortChoice) : Session :=
  s.withSelection (s.selection.setSort sort)

def toggleSort (s : Session) : Session := s.withSelection s.selection.toggleSort

def clearSort (s : Session) : Session := s.withSelection s.selection.clearSort

/-- Page by other batches, from the start. -/
def withBatch (s : Session) (batch : Nat) : Session :=
  { s with pager := (Pager.ofBatch batch).reset s.hits.length }

/-- Wait so many milliseconds for a body. -/
def withLimit (s : Session) (limit : Nat) : Session := { s with limit }

def withMaxSuggestions (s : Session) (max : Nat) : Session := { s with maxSuggestions := max }

/-- Sort by a choice, unless there is none or the session has one already. -/
def withDefaultSort (s : Session) (sort : Option SortChoice) : Session :=
  if sort.isSome && s.selection.sort.isNone then s.setSort sort else s

/-- Take in other suggestions, which is no change of what is searched. -/
def withSuggestions (s : Session) (suggestions : List Filter) : Session :=
  { s with selection := s.selection.withSuggestions suggestions }

/-- A notice that the vault has changed. -/
def notice (s : Session) : Session := { s with signals := s.signals.notice }

/-- The hits that are shown. -/
def window (s : Session) : List Hit := s.pager.window s.hits

/-- Show one batch more. -/
def advance (s : Session) : Session := { s with pager := s.pager.advance }

/-- The suggestions for an input. -/
def narrow (s : Session) (input : String) : Suggestion.Narrowed :=
  Suggestion.narrow s.selection.suggestions input s.selection.filters s.maxSuggestions

/-- What the session searches for. -/
def request (s : Session) : Request := ⟨s.selection.filters, s.selection.sort, s.limit⟩

/-- Take in the news of the vault, which now suggests `offered`. -/
def takeNews (s : Session) (offered : List Filter) : Session :=
  if s.signals.changed then
    { s.withSuggestions offered with stale := true, signals := s.signals.settled }
  else s

/-- A run under a ticket for the version of now, with the check that the version is still wanted
at the end. -/
def attempt (backend : Backend) (course : Course) (request : Request) : RunM (List Hit) := do
  arrive course.beforeTicket
  let ticket := (← get).version.ticket
  let hits ← run backend course request ticket
  arrive course.beforeCommit
  check ticket
  return hits

/-- Run the search if anything has changed since the last run. -/
def tick (s : Session) (offered : List Filter) (backend : Backend) (course : Course) :
    Except Fault Outcome × Session :=
  let s := s.takeNews offered
  if !s.stale then (.ok .idle, s)
  else
    let (result, signals) := (attempt backend course s.request).run.run s.signals
    let s := { s with signals := Signals.notices course.afterCommit signals }
    match result with
    | .ok hits =>
      (.ok (.updated hits.length),
        { s with hits, pager := s.pager.reset hits.length, stale := false })
    | .error .superseded => (.ok .superseded, s)
    | .error fault => (.error (.search fault), { s with stale := false })

end Session
end NoteSearch

import NoteSearch.Query.Compile
import NoteSearch.Search.Fault
import NoteSearch.Search.Needle
import NoteSearch.Search.Signals
import NoteSearch.Search.Sorting

/-!
# A run of a search

A run asks for the notes that the indexed filters select, reads their bodies if there are filters
on text, and sorts what is left. The bodies are read side by side, so they may arrive in any order,
and the first failure to arrive ends the run. Notices of changes may arrive all the time; the run
looks for them between its steps and after each arrival, and then gives up.
-/
namespace NoteSearch.Search

/-- What answers queries. -/
structure Backend where
  available : Bool
  answer : String → Except Vault.Fault (List Hit)

/-- What may happen while bodies are waited for. -/
inductive Arrival where
  /-- The body of a candidate, or why there is none. -/
  | read (index : Nat) (outcome : Except Vault.Fault String)
  /-- Nothing comes for as long as is waited. -/
  | silence
  /-- No reader is left from which something could come. -/
  | closed

/-- All that happens around a run without its doing: how many notices come at each stage, and what
arrives of the bodies, each after some notices. -/
structure Course where
  /-- Notices between the last look at the news and the ticket. -/
  beforeTicket : Nat := 0
  beforeQuery : Nat := 0
  duringQuery : Nat := 0
  arrivals : List Hit → List (Nat × Arrival)
  afterReads : Nat := 0
  /-- Notices between the end of the run and the last check of the ticket. -/
  beforeCommit : Nat := 0
  afterCommit : Nat := 0

/-- A part of a run, which may end it and sees the signals change. -/
abbrev RunM := ExceptT Fault (StateM Signals)

/-- So many notices arrive. -/
def arrive (n : Nat) : RunM Unit := modify (Signals.notices n)

/-- Give up if the ticket is cancelled. -/
def check (ticket : Ticket) : RunM Unit := do
  if ticket.isCancelled (← get).version then throw .superseded

/-- Which candidates have been read, and whether their bodies pass. -/
abbrev Verdicts := List (Nat × Bool)

/-- The path of a candidate. -/
def pathAt (candidates : List Hit) (index : Nat) : String :=
  ((candidates[index]?).map (·.path)).getD ""

/-- The path of the first candidate without a verdict. -/
def firstPending (candidates : List Hit) (verdicts : Verdicts) : String :=
  pathAt candidates <|
    ((List.range candidates.length).find? fun i => (verdicts.lookup i).isNone).getD
      candidates.length

/-- Wait for as many bodies. When no reader is left, the first body that is missing was
interrupted; when none comes in time, it has timed out. After the last arrival no reader is left. -/
def receive (candidates : List Hit) (needles : List Needle) (limit : Nat) (ticket : Ticket) :
    Nat → List (Nat × Arrival) → Verdicts → RunM Verdicts
  | 0, _, verdicts => pure verdicts
  | _ + 1, [], verdicts => do
    check ticket
    let path := firstPending candidates verdicts
    throw (.fetch path (.interrupted path))
  | n + 1, (notices, arrival) :: rest, verdicts => do
    arrive notices
    check ticket
    match arrival with
    | .read index (.ok body) =>
      receive candidates needles limit ticket n rest
        ((index, Needle.allPass needles body) :: verdicts)
    | .read index (.error fault) => throw (.fetch (pathAt candidates index) fault)
    | .silence =>
      let path := firstPending candidates verdicts
      throw (.fetch path (.timedOut path limit))
    | .closed =>
      let path := firstPending candidates verdicts
      throw (.fetch path (.interrupted path))

/-- The candidates whose bodies pass. -/
def passing (candidates : List Hit) (verdicts : Verdicts) : List Hit :=
  (candidates.zipIdx.filter fun (_, i) => verdicts.lookup i == some true).map (·.1)

/-- Keep the candidates whose bodies meet all conditions. -/
def matchText (candidates : List Hit) (needles : List Needle) (limit : Nat) (ticket : Ticket)
    (arrivals : List (Nat × Arrival)) : RunM (List Hit) :=
  passing candidates <$> receive candidates needles limit ticket candidates.length arrivals []

/-- What is asked for: the filters, the order, and the milliseconds that are waited for a body. -/
structure Request where
  filters : List Filter
  sort : Option SortChoice := none
  limit : Nat := 5000
  deriving Repr, DecidableEq

/-- Run a search under a ticket. -/
def run (backend : Backend) (course : Course) (request : Request) (ticket : Ticket) :
    RunM (List Hit) := do
  let needles := request.filters.filterMap Needle.ofFilter?
  if !backend.available then throw .unavailable
  arrive course.beforeQuery
  check ticket
  arrive course.duringQuery
  let candidates ← match backend.answer (Query.compile request.filters) with
    | .ok candidates => pure candidates
    | .error fault => throw (.backend fault)
  check ticket
  let hits ←
    if needles.isEmpty then pure candidates
    else matchText candidates needles request.limit ticket (course.arrivals candidates)
  arrive course.afterReads
  check ticket
  return sortHits request.sort hits

end NoteSearch.Search

import NoteSearch.Search.Version

/-!
# Versions that are shared

A version lies in a slot, and its trackers hold on to the slot. Whoever has a tracker may raise the
version, take tickets for it and hand on further trackers, all of which raise the same version. A
ticket holds on to the slot as well, and so do its copies. Trackers and tickets go by the order in
which they were made.
-/
namespace NoteSearch.Search

/-- Versions, and who holds on to them. -/
structure Sharing where
  /-- The version in each slot. -/
  versions : List Version := []
  /-- The slot of each tracker. -/
  trackers : List Nat := []
  /-- Each ticket with its slot, which does not matter if the ticket is never cancelled. -/
  tickets : List (Nat × Ticket) := []
  deriving Repr, DecidableEq

/-- What can be done with trackers and tickets. -/
inductive Move where
  /-- Make a further tracker of the version of a tracker. -/
  | share (tracker : Nat)
  | bump (tracker : Nat)
  /-- Take a ticket for the version of now. -/
  | issue (tracker : Nat)
  /-- Take a ticket that is never cancelled. -/
  | issueUnlimited
  | copy (ticket : Nat)
  deriving Repr, DecidableEq

namespace Sharing

/-- The first tracker of a new version, which lies behind others. -/
def start (others : List Version) : Sharing :=
  { versions := others ++ [{}], trackers := [others.length] }

/-- The slot of a tracker, and the version there. -/
def tracked? (s : Sharing) (tracker : Nat) : Option (Nat × Version) := do
  let slot ← s.trackers[tracker]?
  some (slot, ← s.versions[slot]?)

/-- A further tracker. -/
def share (s : Sharing) (tracker : Nat) : Option Sharing := do
  let slot ← s.trackers[tracker]?
  some { s with trackers := s.trackers ++ [slot] }

/-- Start a new version through a tracker; with its number. -/
def bump (s : Sharing) (tracker : Nat) : Option (UInt64 × Sharing) := do
  let (slot, version) ← s.tracked? tracker
  some (version.bump.current, { s with versions := s.versions.set slot version.bump })

/-- A ticket from a tracker. -/
def issue (s : Sharing) (tracker : Nat) : Option Sharing := do
  let (slot, version) ← s.tracked? tracker
  some { s with tickets := s.tickets ++ [(slot, version.ticket)] }

/-- A ticket that is never cancelled. -/
def issueUnlimited (s : Sharing) : Sharing :=
  { s with tickets := s.tickets ++ [(0, .unlimited)] }

/-- A copy of a ticket. -/
def copy (s : Sharing) (ticket : Nat) : Option Sharing := do
  let copied ← s.tickets[ticket]?
  some { s with tickets := s.tickets ++ [copied] }

/-- Make a move, if the tracker or ticket that it is made with exists. -/
def perform (s : Sharing) : Move → Option Sharing
  | .share tracker => s.share tracker
  | .bump tracker => (s.bump tracker).map (·.2)
  | .issue tracker => s.issue tracker
  | .issueUnlimited => some s.issueUnlimited
  | .copy ticket => s.copy ticket

/-- Whether a ticket is cancelled, if it exists. -/
def isCancelled? (s : Sharing) (ticket : Nat) : Option Bool := do
  let (slot, ticket) ← s.tickets[ticket]?
  some (ticket.isCancelled ((s.versions[slot]?).getD {}))

end Sharing
end NoteSearch.Search

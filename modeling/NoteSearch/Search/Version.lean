/-!
# Versions of a request

Every change of what is asked for raises a version, which is a 64-bit word. A run takes a ticket
for the version it starts under, and is no longer wanted once the version has moved on.
-/
namespace NoteSearch.Search

/-- The version that is wanted. -/
structure Version where
  current : UInt64 := 0
  deriving Repr, DecidableEq

/-- The right to go on while the version stays the same. Without a version it never ends. -/
structure Ticket where
  version : Option UInt64 := none
  deriving Repr, DecidableEq

namespace Version

/-- Start a new version. -/
def bump (v : Version) : Version := ⟨v.current + 1⟩

/-- Start as many new versions. -/
def bumps : Nat → Version → Version
  | 0, v => v
  | n + 1, v => bumps n v.bump

/-- A ticket for the version of now. -/
def ticket (v : Version) : Ticket := ⟨some v.current⟩

end Version

namespace Ticket

/-- The ticket that is never cancelled. -/
def unlimited : Ticket := {}

/-- Whether the version has moved on since the ticket was taken. -/
def isCancelled (t : Ticket) (v : Version) : Bool :=
  match t.version with
  | some taken => v.current != taken
  | none => false

/-- The version that the ticket is for; zero if it is for none. -/
def number (t : Ticket) : UInt64 := t.version.getD 0

end Ticket
end NoteSearch.Search

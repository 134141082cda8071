import NoteSearch.Vault.Fault

/-!
# What goes on around a workspace

A workspace serves the queries of its sessions and the bodies of its documents to those who ask.
That this may go wrong, and that notices may arrive in the midst of it, is not up to the workspace:
a query may be refused, the reader of a body may fail or never come back, and somebody may give
notice while a query is answered or a body is read.
-/
namespace NoteSearch

/-- What happens to the reader of a body. -/
inductive Trouble where
  | fails (why : String)
  /-- It does not come back. -/
  | stalls
  /-- It goes away without a word. -/
  | vanishes
  deriving Repr, DecidableEq

/-- How queries are served. -/
inductive Service where
  | on
  /-- A vault in memory answers no queries of sessions; a vault on disk always does. -/
  | off
  /-- Every query is refused, for this reason. -/
  | broken (fault : Vault.Fault)
  deriving Repr, DecidableEq

/-- What is to happen from outside. -/
structure Outside where
  /-- The bodies whose readers are in trouble. -/
  troubles : List (String × Trouble) := []
  service : Service := .on
  /-- The session that gets a notice as soon as a query is answered. -/
  onQuery : Option Nat := none
  /-- The session that gets a notice as soon as the body of a path is read. -/
  onRead : Option (String × Nat) := none
  deriving Repr, DecidableEq

namespace Outside

/-- Set or end the trouble with the body of a path. -/
def setTrouble (o : Outside) (path : String) (trouble : Option Trouble) : Outside :=
  let others := o.troubles.filter (·.1 != path)
  { o with troubles := (trouble.map (path, ·)).toList ++ others }

/-- Whether the reader of some path does not come back. -/
def isStalled (o : Outside) (paths : List String) : Bool :=
  paths.any fun path => o.troubles.lookup path == some .stalls

end Outside
end NoteSearch

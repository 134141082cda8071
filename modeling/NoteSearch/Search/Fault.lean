import NoteSearch.Vault.Fault

/-!
# What can go wrong in a search
-/
namespace NoteSearch.Search

/-- Why a search has no answer. -/
inductive Fault where
  /-- Nothing is there that answers queries. -/
  | unavailable
  /-- The query failed. -/
  | backend (fault : Vault.Fault)
  /-- The body of a candidate could not be had. -/
  | fetch (path : String) (fault : Vault.Fault)
  /-- A newer version was asked for. -/
  | superseded
  deriving Repr, DecidableEq

/-- The fault in words. -/
def Fault.message : Fault → String
  | .unavailable => "Query backend is not available"
  | .backend fault => "Backend error: " ++ fault.message
  | .fetch path fault => "Failed to fetch '" ++ path ++ "': " ++ fault.message
  | .superseded => "Search was superseded by a newer run"

end NoteSearch.Search

import NoteSearch.Query.Term

/-!
# What can go wrong in a vault
-/
namespace NoteSearch.Vault

/-- Why a vault could not do what it was asked to. -/
inductive Fault where
  | notFound (path : String)
  /-- The document is there but cannot be read. -/
  | unreadable (path cause : String)
  /-- The vault cannot be listed. -/
  | unlisted (cause : String)
  /-- A document was not read within so many milliseconds. -/
  | timedOut (path : String) (limit : Nat)
  /-- Whoever read the document went away. -/
  | interrupted (path : String)
  | rejected (fault : Query.Fault)
  deriving Repr, DecidableEq

/-- The fault in words. -/
def Fault.message : Fault → String
  | .notFound path => "Document not found: " ++ path
  | .unreadable path cause => "Failed to read '" ++ path ++ "': " ++ cause
  | .unlisted cause => "Cannot scan vault: " ++ cause
  | .timedOut path limit => "Reading '" ++ path ++ "' timed out after " ++ toString limit ++ "ms"
  | .interrupted path => "Reading '" ++ path ++ "' was interrupted"
  | .rejected fault => "Backend rejected query: " ++ fault.message

end NoteSearch.Vault

import NoteSearch.Filter.Written
import NoteSearch.Session.Basic
import NoteSearch.Settings.File

/-!
# Failures

Everything that can go wrong, by the part of the program where it did.
-/
namespace NoteSearch

/-- Why something could not be done. -/
inductive Failure where
  | filter (fault : Filter.Fault)
  | query (fault : Query.Fault)
  | vault (fault : Vault.Fault)
  | search (fault : Search.Fault)
  | session (fault : Session.Fault)
  | settings (fault : Settings.Fault)
  /-- A text is not JSON of the form that was expected. -/
  | json
  | invalidInput (cause : String)
  deriving Repr, DecidableEq

/-- The failure in words. -/
def Failure.message : Failure → String
  | filter fault => "Filter error: " ++ fault.message
  | query fault => "Query error: " ++ fault.message
  | vault fault => "Vault error: " ++ fault.message
  | search fault => "Search error: " ++ fault.message
  | session fault => "Session error: " ++ fault.message
  | settings fault => "Configuration error: " ++ fault.message
  | json => "JSON error"
  | invalidInput cause => "Invalid input: " ++ cause

end NoteSearch

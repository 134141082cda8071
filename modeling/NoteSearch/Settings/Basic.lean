import NoteSearch.Search.Sorting
import NoteSearch.Session.Basic

/-!
# Settings

Settings say which vault is opened when none is named, and how sessions on it behave.
-/
namespace NoteSearch
open Search

/-- What a user has set once and for all. -/
structure Settings where
  /-- The vault that is opened when no other is named. -/
  vault : Option String := none
  batch : Nat := Pager.defaultBatch
  /-- How many milliseconds a run waits for a body. -/
  limit : Nat := 5000
  maxSuggestions : Nat := Suggestion.defaultMax
  /-- How many bodies a vault on disk may keep. -/
  bodies : Nat := 1000
  quiet : Bool := false
  sort : Option SortChoice := none
  deriving Repr, DecidableEq

namespace Settings

/-- The names of the settings, in the order in which they are written. -/
def names : List String :=
  ["vault", "batch_size", "fetch_timeout_ms", "max_suggestions", "body_cache_capacity", "quiet",
    "default_sort"]

/-- The vault to open: the one that is named, or else the one that is set. -/
def root (s : Settings) (named : Option String) : Option String := named.or s.vault

/-- A path in JSON, which may be null. -/
def pathOfJson? : Json → Option (Option String)
  | .null => some none
  | .string path => some (some path)
  | _ => none

/-- The settings that fields stand for; a field that is missing stands for its default. -/
def ofFields? (fields : List (String × Json)) : Option Settings := do
  let d : Settings := {}
  let vault ← Json.optional? fields "vault" pathOfJson? d.vault
  let batch ← Json.optional? fields "batch_size" Json.word? d.batch
  let limit ← Json.optional? fields "fetch_timeout_ms" Json.word? d.limit
  let maxSuggestions ← Json.optional? fields "max_suggestions" Json.word? d.maxSuggestions
  let bodies ← Json.optional? fields "body_cache_capacity" Json.word? d.bodies
  let quiet ← Json.optional? fields "quiet" Json.bool? d.quiet
  let sort ← Json.optional? fields "default_sort" SortChoice.optionOfJson? d.sort
  some { vault, batch, limit, maxSuggestions, bodies, quiet, sort }

/-- The settings in JSON: an object, or an array in the order of the names. -/
def ofJson? : Json → Option Settings
  | .object fields => ofFields? fields
  | .array values =>
    if values.length ≤ names.length then ofFields? (names.zip values) else none
  | _ => none

end Settings

/-- The session under some settings. A default order counts only where none is chosen. -/
def Session.withSettings (s : Session) (settings : Settings) : Session :=
  (((s.withBatch settings.batch).withLimit settings.limit).withMaxSuggestions
    settings.maxSuggestions).withDefaultSort settings.sort

end NoteSearch

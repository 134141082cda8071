import NoteSearch.Filter.Basic
import NoteSearch.Json.Value
import NoteSearch.Time.Instant

/-!
# Hits

A hit is a note in the answer to a query, with what is shown of it and sorted by.
-/
namespace NoteSearch.Search
open Time

/-- A note in an answer. -/
structure Hit where
  title : String
  path : String
  /-- The size in bytes. -/
  size : Nat
  created : Instant
  modified : Instant
  /-- The folder of the note, empty at the root. -/
  folder : String
  /-- How many notes link to this one. -/
  backlinks : Nat
  deriving Repr, DecidableEq

namespace Hit

/-- The filter on all that lies in the folder of the hit, unless that is the root. -/
def folderFilter? (h : Hit) : Option Filter :=
  if h.folder.isEmpty then none else some { probe := .folder, value := h.folder }

/-- The filter on all that links to the hit. -/
def backlinksFilter (h : Hit) : Filter := { probe := .link true none, value := h.path }

/-- The hit as a JSON object. -/
def toJson (h : Hit) : Json :=
  .object [("title", .string h.title), ("path", .string h.path), ("size", .nat h.size),
    ("created_at", .string h.created.fullText), ("modified_at", .string h.modified.fullText),
    ("folder", .string h.folder), ("backlinks", .nat h.backlinks)]

end Hit
end NoteSearch.Search

import NoteSearch.Markdown.Links
import NoteSearch.Markdown.Tags
import NoteSearch.Time.Instant
import NoteSearch.Vault.Path

/-!
# Notes

A note is what a vault knows about one of its documents without looking into the body again.
-/
namespace NoteSearch.Vault
open Time Markdown

/-- What is known about a document. -/
structure Note where
  path : String
  /-- The size in bytes. -/
  size : Nat
  created : Instant
  modified : Instant
  tags : List String
  links : List RawLink
  deriving Repr, DecidableEq

namespace Note

/-- The note of a document with this body; its size is that of the body. -/
def ofBody (path body : String) (created modified : Instant) : Note where
  path
  size := body.utf8ByteSize
  created
  modified
  tags := Markdown.tags body
  links := Markdown.links body

/-- The name of a path: its last part without the ending of notes. -/
def nameOf (path : String) : String := String.ofList (Path.stem (Path.last path.toList))

/-- The folder of a path, empty at the root. -/
def folderOf (path : String) : String := String.ofList (Path.parent path.toList)

def name (n : Note) : String := nameOf n.path

def folder (n : Note) : String := folderOf n.path

/-- Every folder around the note, the nearest last. -/
def ancestors (n : Note) : List String := (Path.ancestors n.path.toList).map String.ofList

/-- Notes by their paths. -/
def byPath (a b : Note) : Ordering := compare a.path b.path

end Note
end NoteSearch.Vault

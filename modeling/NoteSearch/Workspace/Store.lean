import NoteSearch.Suggestion.Collected
import NoteSearch.Vault.Folder
import NoteSearch.Vault.Memory

/-!
# Stores

A store is a vault of either kind: in memory, or on a disk that may change under it.
-/
namespace NoteSearch
open Vault

/-- A vault and, for one on disk, the disk as it is now. -/
inductive Store where
  | memory (vault : Memory)
  | folder (vault : Folder) (disk : Disk.Tree)
  deriving Repr, DecidableEq

namespace Store

/-- The catalogue that queries are answered from. -/
def catalogue : Store → Catalogue
  | memory vault => vault.catalogue
  | folder vault _ => vault.catalogue

/-- The body of the document of a path; a vault on disk keeps it. -/
def read (s : Store) (path : String) : Except Vault.Fault String × Store :=
  match s with
  | memory vault => (vault.read path, s)
  | folder vault disk =>
    let (body, vault) := vault.read disk path
    (body, folder vault disk)

/-- The filters that the vault suggests. -/
def suggestions (s : Store) : List Filter := Suggestion.collect s.catalogue

/-- Tell of a filter on a link whether its target is the path of a note. -/
def resolveLink (s : Store) (f : Filter) : Filter :=
  match f.probe with
  | .link _ label => { f with probe := .link (s.catalogue.contains f.value) label }
  | _ => f

end Store
end NoteSearch

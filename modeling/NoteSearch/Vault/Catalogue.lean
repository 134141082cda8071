import NoteSearch.Keyed
import NoteSearch.Order.Sorted
import NoteSearch.Query.Read
import NoteSearch.Search.Hit
import NoteSearch.Text.LowerCase
import NoteSearch.Vault.Fault
import NoteSearch.Vault.Note
import NoteSearch.Vault.Resolution

/-!
# The catalogue of a vault

The catalogue holds the notes of a vault in the order of their paths, each with its links
resolved among all of them, the folders, and for each path which notes link to it. It answers
queries: a note is in the answer when every term holds of it.
-/
namespace NoteSearch.Vault
open Text Search Query

/-- A note with its links resolved. -/
structure Entry where
  note : Note
  links : List Link
  deriving Repr, DecidableEq

/-- For each path that is linked to, the paths of the notes that link to it, in order. -/
abbrev Backlinks := List (String × List String)

namespace Backlinks

/-- The paths of the notes that link to a path. -/
def sources (b : Backlinks) (target : String) : List String := (b.lookup target).getD []

/-- Note down that a note links to a path. -/
def add (b : Backlinks) (target source : String) : Backlinks :=
  Keyed.put b target (Order.insert compare source (b.sources target))

/-- Note down the links of an entry that lead to a note, one after the other. -/
def addLinks (b : Backlinks) (e : Entry) : Backlinks :=
  (e.links.filter (·.found)).foldl (fun b link => b.add link.target e.note.path) b

end Backlinks

/-- The notes of a vault with their links and its folders, all in order, and what links to what. -/
structure Catalogue where
  entries : List Entry := []
  folders : List String := []
  backlinks : Backlinks := []
  deriving Repr, DecidableEq

/-- A target that is offered for links. -/
structure LinkTarget where
  path : String
  found : Bool
  label : Option String
  deriving Repr, DecidableEq

namespace Catalogue

/-- The catalogue of some notes. Of several notes with one path the last counts. -/
def ofNotes (notes : List Note) : Catalogue :=
  let sorted := Order.ofList Note.byPath notes
  let paths := sorted.map (·.path)
  let entries := sorted.map fun note => ⟨note, note.links.map (Link.ofRaw paths)⟩
  { entries
    folders := Order.ofList compare (sorted.flatMap Note.ancestors)
    backlinks := entries.foldl Backlinks.addLinks [] }

/-- The catalogue with further folders, such as those without notes. -/
def withFolders (c : Catalogue) (folders : List String) : Catalogue :=
  let further := folders.filter (!·.isEmpty)
  { c with folders := further.foldl (fun all folder => Order.insert compare folder all) c.folders }

/-- The paths of the notes, in order. -/
def paths (c : Catalogue) : List String := c.entries.map (·.note.path)

/-- The entry of a path. -/
def entry? (c : Catalogue) (path : String) : Option Entry :=
  c.entries.find? (·.note.path == path)

/-- The note of a path. -/
def note? (c : Catalogue) (path : String) : Option Note := (c.entry? path).map (·.note)

/-- Whether a note has this path. -/
def contains (c : Catalogue) (path : String) : Bool := (c.entry? path).isSome

/-- The path of the note that a target stands for. -/
def resolve (c : Catalogue) (target : String) : Option String := Vault.resolve c.paths target

/-- The links of the note of a path. -/
def linksOf (c : Catalogue) (path : String) : List Link :=
  ((c.entry? path).map (·.links)).getD []

/-- How many notes link to a path. -/
def backlinkCount (c : Catalogue) (path : String) : Nat := (c.backlinks.sources path).length

/-- All tags of the notes, one for each note that carries it. -/
def tagUses (c : Catalogue) : List String := c.entries.flatMap (·.note.tags)

/-- The tags, in order, each with the number of notes that carry it. -/
def tags (c : Catalogue) : List (String × Nat) :=
  (Order.ofList compare c.tagUses).map fun tag => (tag, c.tagUses.count tag)

/-- All resolved links of the notes. -/
def links (c : Catalogue) : List Link := c.entries.flatMap (·.links)

/-- The targets that are offered for links: every note; every label of a link to a note; and every
target that leads nowhere. -/
def linkTargets (c : Catalogue) : List LinkTarget :=
  let labelled := c.links.filterMap fun link =>
    if link.found then link.label.map (link.target, ·) else none
  let missing := c.links.filterMap fun link => if link.found then none else some link.target
  c.paths.map (⟨·, true, none⟩)
    ++ (Order.ofList Order.pairs labelled).map (fun (path, label) => ⟨path, true, some label⟩)
    ++ (Order.ofList compare missing).map (⟨·, false, none⟩)

/-- A tag as it is compared: in lower case, with its mark. -/
def comparedTag (tag : String) : List Char :=
  let plain := lower (trim tag.toList)
  if plain.head? = some '#' then plain else '#' :: plain

/-- Whether a term's condition holds of a note, its negation aside. -/
def holds (c : Catalogue) (e : Entry) (term : Term) : Bool :=
  match term.kind with
  | .tag => e.note.tags.any fun tag => Path.within (comparedTag term.target) (lower tag.toList)
  | .folder =>
    let folder := Path.trimSlashes term.target.toList
    folder.isEmpty || Path.within folder e.note.path.toList
  | .link =>
    let target := (c.resolve term.target).getD (trimmed term.target)
    (c.linksOf e.note.path).any (·.target == target)
  | .outgoing =>
    match c.resolve term.target with
    | some source => (c.linksOf source).any fun link => link.found && link.target == e.note.path
    | none => false

/-- What is shown of a note. -/
def hit (c : Catalogue) (note : Note) : Hit where
  title := note.name
  path := note.path
  size := note.size
  created := note.created
  modified := note.modified
  folder := note.folder
  backlinks := c.backlinkCount note.path

/-- The notes of which every term holds, in the order of their paths. -/
def select (c : Catalogue) (terms : List Term) : List Hit :=
  (c.entries.filter fun e => terms.all fun term => c.holds e term != term.negated).map fun e =>
    c.hit e.note

/-- The answer to a query. -/
def answer (c : Catalogue) (query : String) : Except Fault (List Hit) :=
  match Query.read query with
  | .ok terms => .ok (c.select terms)
  | .error fault => .error (.rejected fault)

end Catalogue
end NoteSearch.Vault

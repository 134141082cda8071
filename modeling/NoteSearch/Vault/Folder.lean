import NoteSearch.Disk.Tree
import NoteSearch.Text.Utf8
import NoteSearch.Vault.Catalogue

/-!
# Vaults on disk

A vault on disk is a directory. It is scanned when it is opened, and then only at request: until
the next scan its notes are the same, and a body that was read once stays as it was. Files and
directories whose names begin with a dot are passed over.
-/
namespace NoteSearch.Vault
open Disk

/-- A directory, what was found in it, and the bodies that have been read since. -/
structure Folder where
  root : String
  catalogue : Catalogue
  bodies : List (String × String) := []
  deriving Repr, DecidableEq

namespace Folder

/-- A name that is passed over. -/
def isHidden (name : String) : Bool := name.toList.head? == some '.'

/-- The name of a note ends like one. -/
def isNoteName (name : String) : Bool := (Text.before? Path.ending name.toList).isSome

/-- How a path goes on below a directory, if its components begin with those of the directory and
there are others. -/
def relativePath? (root full : String) : Option String :=
  match (components root).isPrefixOf? (components full) with
  | none | some [] => none
  | some names => some ("/".intercalate names)

/-- The note of a file; its size is that of the bytes, and what is no text in them is replaced. -/
def load (t : Tree) (full path : String) : Except Fault Note :=
  match t.read full with
  | .error fault => .error (.unreadable path fault.message)
  | .ok (bytes, modified) =>
    .ok { Note.ofBody path (Text.ofBytes bytes) modified modified with size := bytes.length }

/-- The entries that are written as entries of a directory, with how they go on below it; the others
are passed over. -/
def entriesBelow (root : String) (entries : List String) : List (String × String) :=
  entries.filterMap fun full => (relativePath? root full).map (full, ·)

/-- Make a catalogue of the entries below a directory, whichever order they come in: directories are
folders, and files that are named like notes are loaded. -/
def scanFrom (t : Tree) (root : String) (entries : List String) : Except Fault Catalogue := do
  let (folders, files) := (entriesBelow root entries).partition (t.isDirectory ·.1)
  let notes ← (files.filter (isNoteName ·.2)).mapM fun entry => load t entry.1 entry.2
  return (Catalogue.ofNotes notes).withFolders (folders.map (·.2))

/-- Open the vault of a directory with these entries below it. -/
def openFrom (t : Tree) (root : String) (entries : List String) : Except Fault Folder := do
  if !t.isDirectory root then throw (.notFound root)
  return { root, catalogue := ← scanFrom t root entries }

/-! ## The entries below a directory -/

/-- The deepest nesting that can be reached: links to directories may repeat a part of the
tree, but only as often as links may be followed. -/
def depthBound (t : Tree) : Nat :=
  (t.nodes.length + 1) * (linkLimit + 2)

/-- The paths below a directory that are not hidden, a directory before what is in it. -/
def walk (t : Tree) (root : String) : (fuel : Nat) → (below : String) → List String
  | 0, _ => []
  | fuel + 1, below =>
    match t.locate (if below.isEmpty then root else joined root below) with
    | .error _ => []
    | .ok place =>
      ((t.names place).filter (!isHidden ·)).flatMap fun name =>
        let path := joined below name
        path :: (if t.isDirectory (joined root path) then walk t root fuel path else [])

/-- A name with a character that stands for others in a pattern of names. -/
def isPatternLike (name : String) : Bool := name.toList.any (['?', '*', '[', ']'].contains ·)

/-- Nothing is listed below a hidden directory whose name looks like a pattern: a name of that kind
has to be searched for, and a search passes over what is hidden. -/
def isOutOfSight (root : String) : Bool :=
  (parts root).any fun name => isHidden name && isPatternLike name

/-- A directory as it is written in a listing, which leaves out a dot at the start. -/
def rootListed (root : String) : String :=
  if startsHere root then
    "/".intercalate ((parts root).dropWhile fun part => part == "" || part == ".")
  else root

/-- The entries below a directory. Nothing is listed twice or hidden. -/
def listed (t : Tree) (root : String) : List String :=
  if isOutOfSight root then []
  else (walk t root (depthBound t) "").map (joined (rootListed root))

/-- Scan a directory for notes and folders. -/
def scan (t : Tree) (root : String) : Except Fault Catalogue := scanFrom t root (listed t root)

/-- Open the vault of a directory. -/
def openAt (t : Tree) (root : String) : Except Fault Folder := openFrom t root (listed t root)

/-! ## Scanning again, and reading -/

/-- Scan again and forget the bodies; with the paths that are new, in order. -/
def rescan (f : Folder) (t : Tree) : Except Fault (List String × Folder) := do
  let fresh ← scan t f.root
  return (fresh.paths.filter (!f.catalogue.contains ·), { f with catalogue := fresh, bodies := [] })

/-- The body of the document of a path, which is kept. -/
def read (f : Folder) (t : Tree) (path : String) : Except Fault String × Folder :=
  match f.bodies.lookup path with
  | some body => (.ok body, f)
  | none =>
    if !f.catalogue.contains path then (.error (.notFound path), f)
    else
      match t.read (joined f.root path) with
      | .error fault => (.error (.unreadable path fault.message), f)
      | .ok (bytes, _) =>
        let body := Text.ofBytes bytes
        (.ok body, { f with bodies := (path, body) :: f.bodies })

end Folder
end NoteSearch.Vault

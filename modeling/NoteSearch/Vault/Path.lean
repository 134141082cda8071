import NoteSearch.Text.Pieces

/-!
# Paths of notes

A path is written from the root of the vault, with slashes between its parts. Nothing is assumed
of it: it may be empty, and slashes may stand at its ends and next to each other.
-/
namespace NoteSearch.Vault.Path
open Text

/-- A character other than the slash. -/
def notSlash (c : Char) : Bool := c != '/'

/-- What follows the last slash. -/
def last (path : List Char) : List Char := (path.reverse.takeWhile notSlash).reverse

/-- What stands before the last slash; nothing if there is none. -/
def parent (path : List Char) : List Char := (path.reverse.dropWhile notSlash).tail.reverse

/-- What stands before each slash, with the text before the path in reverse. -/
def ancestorsFrom (before : List Char) : List Char → List (List Char)
  | [] => []
  | c :: rest =>
    if c = '/' then before.reverse :: ancestorsFrom (c :: before) rest
    else ancestorsFrom (c :: before) rest

/-- The folders around a path: what stands before each slash, the nearest last. -/
def ancestors (path : List Char) : List (List Char) := ancestorsFrom [] path

/-- How many slashes the path has. -/
def depth (path : List Char) : Nat := path.count '/'

/-- The ending of notes. -/
def ending : List Char := ".md".toList

/-- The name of a file without the ending of notes. -/
def stem (name : List Char) : List Char := (before? ending name).getD name

/-- Whether the path is that of the folder, or of something in it. -/
def within (folder path : List Char) : Bool :=
  match after? folder path with
  | some [] => true
  | some (c :: _) => c == '/'
  | none => false

/-- The path without the slashes at its start. -/
def trimSlashesStart (path : List Char) : List Char := path.dropWhile (· == '/')

/-- The path without the slashes at either end. -/
def trimSlashes (path : List Char) : List Char :=
  ((trimSlashesStart path).reverse.dropWhile (· == '/')).reverse

end NoteSearch.Vault.Path

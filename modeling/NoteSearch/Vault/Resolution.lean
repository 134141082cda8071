import NoteSearch.Markdown.Links
import NoteSearch.Text.Blank
import NoteSearch.Vault.Path

/-!
# Where a link leads

The target of a link is looked for as a path, then as a path without its ending, and then, if it
names no folder, as the name of a file anywhere. Of several files of that name the one
with the fewest slashes in its path is taken, and of those the first in the order of paths.
-/
namespace NoteSearch.Vault
open Text Markdown

/-- A target without white space around it and without slashes at its start. -/
def plainTarget (target : String) : List Char := Path.trimSlashesStart (trim target.toList)

/-- A target with the ending of notes. -/
def withEnding (target : List Char) : List Char := target ++ Path.ending

/-- The name of the file that a target without folder looks for. -/
def fileWanted (target : List Char) : List Char :=
  if (before? Path.ending target).isSome then target else withEnding target

/-- The first of the paths that has the fewest slashes. -/
def shallowest : List String → Option String
  | [] => none
  | path :: paths =>
    match shallowest paths with
    | none => some path
    | some other =>
      if Path.depth path.toList ≤ Path.depth other.toList then some path else some other

/-- The path, among the given ones in their order, that a target stands for. -/
def resolve (paths : List String) (target : String) : Option String :=
  let plain := plainTarget target
  if paths.contains (String.ofList plain) then some (String.ofList plain)
  else if paths.contains (String.ofList (withEnding plain)) then
    some (String.ofList (withEnding plain))
  else if plain.contains '/' then none
  else shallowest (paths.filter fun path => Path.last path.toList == fileWanted plain)

/-- A link after resolution: the path of a note, or the target as written if there is none. -/
structure Link where
  target : String
  found : Bool
  label : Option String
  deriving Repr, DecidableEq

/-- A link with its target resolved among the paths. -/
def Link.ofRaw (paths : List String) (raw : RawLink) : Link :=
  match resolve paths raw.target with
  | some path => ⟨path, true, raw.label⟩
  | none => ⟨raw.target, false, raw.label⟩

end NoteSearch.Vault

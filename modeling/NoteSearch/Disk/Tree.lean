import NoteSearch.Keyed
import NoteSearch.Text.Pieces
import NoteSearch.Time.Instant

/-!
# File trees

A file tree says what lies at each place: a file, a link to another path, or a directory. A path
is followed part by part and through links, of which at most forty may be on the way.
-/
namespace NoteSearch.Disk
open Time

/-- The names from the top of the tree down. -/
abbrev Place := List String

/-- What lies at a place. -/
inductive Node where
  | file (bytes : List UInt8) (modified : Instant)
  | link (target : String)
  | directory
  deriving Repr, DecidableEq

/-- Why something could not be done with a path. -/
inductive Fault where
  | missing
  | present
  | notDirectory
  | isDirectory
  | tooManyLinks
  deriving Repr, DecidableEq

/-- The fault in words, with its number. -/
def Fault.message : Fault → String
  | .missing => "No such file or directory (os error 2)"
  | .present => "File exists (os error 17)"
  | .notDirectory => "Not a directory (os error 20)"
  | .isDirectory => "Is a directory (os error 21)"
  | .tooManyLinks => "Too many levels of symbolic links (os error 40)"

/-- Places with what lies there. The top is a directory that need not be listed. -/
structure Tree where
  nodes : List (Place × Node) := []
  deriving Repr, DecidableEq

/-- How many links may be followed on the way to a place. -/
def linkLimit : Nat := 40

/-- The parts of a path. -/
def parts (path : String) : List String := (Text.pieces '/' path.toList).map String.ofList

/-- Whether a path starts at the top. -/
def isAbsolute (path : String) : Bool := path.toList.head? == some '/'

/-- Whether a path starts with a dot that stands for the directory that it is followed from. -/
def startsHere (path : String) : Bool := (parts path).head? == some "."

/-- The components of a path: its parts without those that are empty or a dot. Only at the start of
the path, a slash or such a dot is a component as well. -/
def components (path : String) : List String :=
  let names := (parts path).filter fun part => part != "" && part != "."
  match isAbsolute path, startsHere path with
  | true, _ => "/" :: names
  | false, true => "." :: names
  | false, false => names

/-- A name in the directory of a path. -/
def joined (path name : String) : String :=
  if path.isEmpty then name
  else if path.toList.getLast? = some '/' then path ++ name else path ++ "/" ++ name

/-- The path without its last part, which is all of it if there is only one. Empty parts and dots at
the end do not count as parts. -/
def directoryOf (path : String) : String :=
  let counted := (parts path).reverse.dropWhile fun part => part = "" ∨ part = "."
  "/".intercalate counted.tail.reverse

namespace Tree

/-- What lies at a place itself. -/
def node? (t : Tree) (place : Place) : Option Node :=
  if place.isEmpty then some .directory else t.nodes.lookup place

/-- Put something at a place, in the place of what was there. -/
def set (t : Tree) (place : Place) (node : Node) : Tree :=
  ⟨Keyed.put t.nodes place node⟩

/-- Take away what lies at a place or below it. -/
def erase (t : Tree) (place : Place) : Tree :=
  ⟨t.nodes.filter fun (p, _) => !place.isPrefixOf p⟩

/-- The names in a directory, in order. -/
def names (t : Tree) (place : Place) : List String :=
  (t.nodes.filterMap fun (p, _) => if p.dropLast == place then p.getLast? else none).mergeSort
    (compare · · |>.isLE)

/-- Follow the parts of a path from a place. Where the last part names nothing or, unless links are
followed to the end, a link, that is where the path leads. -/
def follow (t : Tree) (toEnd : Bool) (links : Nat) (place : Place) :
    List String → Except Fault Place
  | [] => .ok place
  | part :: rest =>
    match t.node? place with
    | none => .error .missing
    | some (.file ..) | some (.link _) => .error .notDirectory
    | some .directory =>
      if part = "" ∨ part = "." then t.follow toEnd links place rest
      else if part = ".." then t.follow toEnd links place.dropLast rest
      else
        match t.node? (place ++ [part]) with
        | some (.link target) =>
          if rest.isEmpty && !toEnd then .ok (place ++ [part])
          else
            match links with
            | 0 => .error .tooManyLinks
            | links + 1 =>
              t.follow toEnd links (if isAbsolute target then [] else place) (parts target ++ rest)
        | _ => t.follow toEnd links (place ++ [part]) rest
termination_by parts => (links, parts.length)

/-- The place that a path leads to, where something lies or may be put. -/
def locate (t : Tree) (path : String) : Except Fault Place :=
  if path.isEmpty then .error .missing else t.follow true linkLimit [] (parts path)

/-- What a path leads to. -/
def find (t : Tree) (path : String) : Except Fault Node :=
  (t.locate path).bind fun place =>
    match t.node? place with
    | some node => .ok node
    | none => .error .missing

/-- Whether a path leads to a directory. -/
def isDirectory (t : Tree) (path : String) : Bool :=
  match t.find path with
  | .ok .directory => true
  | _ => false

/-- The bytes of the file that a path leads to, and when it was modified. -/
def read (t : Tree) (path : String) : Except Fault (List UInt8 × Instant) :=
  (t.find path).bind fun
    | .file bytes modified => .ok (bytes, modified)
    | .link _ => .error .tooManyLinks
    | .directory => .error .isDirectory

/-- Write the file that a path leads to. Times of files know no leap seconds. -/
def write (t : Tree) (path : String) (bytes : List UInt8) (modified : Instant) :
    Except Fault Tree :=
  (t.locate path).bind fun place =>
    match t.node? place with
    | some .directory => .error .isDirectory
    | _ => .ok (t.set place (.file bytes modified.carried))

/-- Why nothing can be made behind what is at a path: it is a file, or a link that leads nowhere. -/
def obstacle (t : Tree) (path : String) : Fault :=
  match t.find path with
  | .ok _ => .notDirectory
  | .error .missing => .present
  | .error fault => fault

/-- Make the directory at a path, if the path does not lead to one; it may be the last to be made. A
link is not followed to a place where something could be made. -/
def makeAt (t : Tree) (path : String) (isLast : Bool) : Except Fault Tree :=
  if t.isDirectory path then .ok t
  else (t.follow false linkLimit [] (parts path)).bind fun place =>
    match t.node? place with
    | some _ => .error (if isLast then .present else t.obstacle path)
    | none => .ok (t.set place .directory)

/-- Make the directories along a path that are missing, from a path that is there; and the tree as
it is left, with those that could be made. -/
def makeDirectories (t : Tree) (before : String) : List String → Except Fault Unit × Tree
  | [] => (.ok (), t)
  | part :: rest =>
    let path := joined before part
    match t.makeAt path rest.isEmpty with
    | .error fault => (.error fault, t)
    | .ok t => t.makeDirectories path rest

/-- Make the directory of a path, with all directories around it; and the tree as it is left. -/
def makeAll (t : Tree) (path : String) : Except Fault Unit × Tree :=
  t.makeDirectories (if isAbsolute path then "/" else "") ((parts path).filter (!·.isEmpty))

/-- The tree with the directory of a path. -/
def makeDirectory (t : Tree) (path : String) : Except Fault Tree :=
  match t.makeAll path with
  | (.ok (), t) => .ok t
  | (.error fault, _) => .error fault

/-- Put a link at a path. -/
def link (t : Tree) (path target : String) : Except Fault Tree :=
  (t.follow false linkLimit [] (parts path)).bind fun place =>
    match t.node? place with
    | some _ => .error .present
    | none => .ok (t.set place (.link target))

/-- Take away what lies at a path, a link rather than what it leads to. -/
def remove (t : Tree) (path : String) : Except Fault Tree :=
  (t.follow false linkLimit [] (parts path)).bind fun place =>
    match t.node? place with
    | some _ => .ok (t.erase place)
    | none => .error .missing

end Tree
end NoteSearch.Disk

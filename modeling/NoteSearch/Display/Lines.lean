import NoteSearch.Display.Size
import NoteSearch.Display.Style
import NoteSearch.Filter.Written
import NoteSearch.Json.Writer
import NoteSearch.Search.Sorting

/-!
# Lines for reading

The lines in which hits, filters and suggestions are shown, and the JSON listing of hits.
-/
namespace NoteSearch.Display
open Search

/-- A hit: its path alone when quiet. Its date is that of the zone. -/
def hitLine (zone : Time.Zone) (styled quiet : Bool) (h : Hit) : String :=
  if quiet then h.path
  else
    let folder := if h.folder.isEmpty then "/" else h.folder
    "  " ++ Style.apply { bold := true } styled h.title
      ++ " " ++ Style.apply { dimmed := true } styled folder
      ++ "  " ++ size h.size ++ "  " ++ (h.modified.inZone zone).shortText
      ++ "  " ++ toString h.backlinks ++ " backlink(s)"

/-- The colour of a facet. -/
def facetColour : Facet → Colour
  | .tag => .cyan
  | .folder => .blue
  | .link | .backlink => .magenta
  | .text => .yellow

/-- A filter in words, struck through if it is reversed. -/
def filterLine (styled : Bool) (f : Filter) : String :=
  "  " ++ Style.apply { struck := f.reversed, colour := some (facetColour f.facet) } styled
    f.describe

/-- A suggestion: its written form alone when quiet. -/
def suggestionLine (styled quiet : Bool) (f : Filter) : String :=
  if quiet then f.written
  else
    "  " ++ Style.apply { colour := some .green } styled f.written
      ++ "  " ++ Style.apply { dimmed := true } styled f.describe

/-- What is said when not all suggestions are shown. -/
def truncatedHint (styled : Bool) : String :=
  Style.apply { dimmed := true } styled "  ... keep typing to narrow down"

/-- What is said below a page of hits. -/
def footer (shown total : Nat) (sort : Option SortChoice) : String :=
  "Showing " ++ toString shown ++ " of " ++ toString total ++ " result(s), sorted by "
    ++ (sort.getD {}).text

/-- The hits as an indented JSON array. -/
def listing (hits : List Hit) : String := (Json.array (hits.map Hit.toJson)).pretty

end NoteSearch.Display

import NoteSearch.Filter.Interchange
import NoteSearch.Json.Writer
import NoteSearch.Search.Sorting

/-!
# Selections

A selection is what a user has picked: filters in the order in which they are shown, and how to
sort. It also holds the suggestions, which are not part of its written form.
-/
namespace NoteSearch
open Search

/-- Why a selection could not be changed. -/
structure Selection.OutOfRange where
  index : Nat
  /-- How many filters there are. -/
  length : Nat
  deriving Repr, DecidableEq

/-- The fault in words. -/
def Selection.OutOfRange.message (fault : OutOfRange) : String :=
  "Filter index " ++ toString fault.index ++ " out of range (session has "
    ++ toString fault.length ++ " filters)"

/-- The filters and the order that are asked for, and what else is offered. -/
structure Selection where
  filters : List Filter := []
  sort : Option SortChoice := none
  suggestions : List Filter := []
  deriving Repr, DecidableEq

namespace Selection

/-- Add a filter at the end, unless it is there. -/
def add (s : Selection) (f : Filter) : Selection :=
  if f ∈ s.filters then s else { s with filters := s.filters ++ [f] }

/-- Remove the filter at an index. -/
def remove (s : Selection) (index : Nat) : Except OutOfRange Selection :=
  if index < s.filters.length then .ok { s with filters := s.filters.eraseIdx index }
  else .error ⟨index, s.filters.length⟩

/-- Remove the last filter. -/
def removeLast (s : Selection) : Selection := { s with filters := s.filters.dropLast }

/-- Take other filters; of equal ones the first counts. -/
def setFilters (s : Selection) (filters : List Filter) : Selection :=
  filters.foldl add { s with filters := [] }

/-- Turn round the first filter equal to one. If its reverse is there already, it only goes. -/
def reverse (s : Selection) (f : Filter) : Selection :=
  match s.filters.findIdx? (· == f) with
  | none => s
  | some index =>
    if f.toggled ∈ s.filters then { s with filters := s.filters.eraseIdx index }
    else { s with filters := s.filters.set index f.toggled }

/-- Take another order. -/
def setSort (s : Selection) (sort : Option SortChoice) : Selection := { s with sort }

/-- Sort in the other direction, if there is a choice. -/
def toggleSort (s : Selection) : Selection := { s with sort := s.sort.map (·.flipped) }

/-- Sort by default. -/
def clearSort (s : Selection) : Selection := s.setSort none

/-- Offer other suggestions. -/
def withSuggestions (s : Selection) (suggestions : List Filter) : Selection :=
  { s with suggestions }

/-- The selection as a JSON object. -/
def toJson (s : Selection) : Json :=
  .object [("filters", .array (s.filters.map Filter.toJson)),
    ("sort", (s.sort.map SortChoice.toJson).getD .null)]

/-- The written form, which leaves out the suggestions. -/
def text (s : Selection) : String := s.toJson.compact

/-- Filters in an array that is itself nested twice in a document. -/
def filtersOfJson? : Json → Option (List Filter)
  | .array vs => vs.mapM (Filter.ofJson? (Json.depthLimit - 2))
  | _ => none

/-- The selection that a JSON value stands for: an object, or an array of filters and order. -/
def ofJson? : Json → Option Selection
  | .object fields => do
    let filters ← filtersOfJson? (← Json.required? fields "filters")
    let sort ← Json.optional? fields "sort" SortChoice.optionOfJson? none
    some { filters, sort }
  | .array [filters, sort] => do
    some { filters := ← filtersOfJson? filters, sort := ← SortChoice.optionOfJson? sort }
  | _ => none

end Selection
end NoteSearch

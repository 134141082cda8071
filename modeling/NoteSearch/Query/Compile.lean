import NoteSearch.Query.Term
import NoteSearch.Text.Pieces

/-!
# From filters to a query

Every filter but those on text becomes a term, in order. No filters, or only filters on text,
give the empty query, which all notes satisfy.
-/
namespace NoteSearch.Query

/-- The written term of a filter. -/
def writeTerm (f : Filter) : Except Fault String :=
  match Term.ofFilter? f with
  | some term => .ok (String.ofList term.written)
  | none => .error (.unsupported f.facet)

/-- The query as it is written. -/
def write (terms : List Term) : String :=
  String.ofList (Text.join between (terms.map Term.written))

/-- The query that asks for all filters but those on text. -/
def compile (filters : List Filter) : String := write (filters.filterMap Term.ofFilter?)

end NoteSearch.Query

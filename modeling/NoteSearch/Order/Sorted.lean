/-!
# Lists kept in order

Lists without repetitions that are kept in the order of a comparison. Inserting an element that
compares equal to one of the list puts it in that one's place.
-/
namespace NoteSearch.Order

/-- Put an element at its place, or in the place of its equal. -/
def insert {α : Type} (cmp : α → α → Ordering) (a : α) : List α → List α
  | [] => [a]
  | b :: rest =>
    match cmp a b with
    | .lt => a :: b :: rest
    | .eq => a :: rest
    | .gt => b :: insert cmp a rest

/-- The elements in order; of those that compare equal, the last. -/
def ofList {α : Type} (cmp : α → α → Ordering) (as : List α) : List α :=
  as.foldl (fun sorted a => insert cmp a sorted) []

/-- Pairs of strings by their first parts, then by their second ones. -/
def pairs (a b : String × String) : Ordering := (compare a.1 b.1).then (compare a.2 b.2)

end NoteSearch.Order

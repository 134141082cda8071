import NoteSearch.Keyed
import NoteSearch.Toml.Value

/-!
# Tables under construction

The tables of a document are put together line by line. A table may be named by its own header, by
a header of a table inside it, or by a dotted key, and this decides what may still be added:
nothing can be defined twice, a header opens a table that at most headers inside it have named,
and dotted keys go only into tables that dotted keys have named.
-/
namespace NoteSearch.Toml

/-- How a table came to be. -/
inductive Origin where
  /-- By its own header. -/
  | header
  /-- By the header of a table inside it. -/
  | path
  /-- By a dotted key. -/
  | key
  deriving Repr, DecidableEq

/-- A part of a document. -/
inductive Outline where
  | value (v : Value)
  | table (origin : Origin) (fields : List (String × Outline))
  /-- An array of tables, of which the last is still open. -/
  | tables (elements : List (List (String × Outline)))

namespace Outline

abbrev Fields := List (String × Outline)

/-- Go down a path and change the fields there. Tables that are missing are added; a dotted key
does not go through a table that has its own header. -/
def change (dotted : Bool) (act : Origin → Fields → Option Fields) :
    Origin → Fields → (path : List String) → Option Fields
  | origin, fields, [] => act origin fields
  | _, fields, name :: path =>
    match fields.lookup name with
    | none => do
      let origin := if dotted then Origin.key else .path
      let inner ← change dotted act origin [] path
      some (Keyed.put fields name (.table origin inner))
    | some (.value _) => none
    | some (.table origin inner) => do
      if dotted && origin == .header then none
      let inner ← change dotted act origin inner path
      some (Keyed.put fields name (.table origin inner))
    | some (.tables elements) => do
      let inner ← change dotted act .header (elements.getLast?.getD []) path
      some (Keyed.put fields name (.tables (elements.dropLast ++ [inner])))

/-- Add a value under a dotted key. -/
def addValue (path : List String) (name : String) (v : Value) (origin : Origin) (fields : Fields) :
    Option Fields :=
  let add (origin : Origin) (fields : Fields) : Option Fields :=
    if (origin == .key) != path.isEmpty && (fields.lookup name).isNone then
      some (Keyed.put fields name (.value v))
    else none
  change true add origin fields path

/-- Open the table of a header. -/
def openTable (path : List String) (name : String) (fields : Fields) : Option Fields :=
  let add (_ : Origin) (fields : Fields) : Option Fields :=
    match fields.lookup name with
    | none => some (Keyed.put fields name (.table .header []))
    | some (.table .path inner) => some (Keyed.put fields name (.table .header inner))
    | some _ => none
  change false add .header fields path

/-- Open a further table in the array of a header. -/
def openElement (path : List String) (name : String) (fields : Fields) : Option Fields :=
  let add (_ : Origin) (fields : Fields) : Option Fields :=
    match fields.lookup name with
    | none => some (Keyed.put fields name (.tables [[]]))
    | some (.tables elements) => some (Keyed.put fields name (.tables (elements ++ [[]])))
    | some _ => none
  change false add .header fields path

mutual
/-- The finished value of a part. -/
def finish : Outline → Value
  | .value v => v
  | .table _ fields => .table (finishFields fields)
  | .tables elements => .array (finishElements elements)

/-- The finished values of fields. -/
def finishFields : List (String × Outline) → List (String × Value)
  | [] => []
  | (name, part) :: fields => (name, finish part) :: finishFields fields

/-- The finished tables of an array. -/
def finishElements : List (List (String × Outline)) → List Value
  | [] => []
  | fields :: elements => .table (finishFields fields) :: finishElements elements
end

end Outline
end NoteSearch.Toml

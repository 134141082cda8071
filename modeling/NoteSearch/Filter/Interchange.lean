import NoteSearch.Filter.Basic
import NoteSearch.Json.Value

/-!
# Filters in JSON

A filter is an object with the fields `type`, `value` and `reversed`, and for a link `exists` and
`alias`. Fields that a filter does not have are passed over, but everything in the object
has to be sound. A facet may also be given by its place in the list of facets.
-/
namespace NoteSearch.Filter

/-- The filter as a JSON object. -/
def toJson (f : Filter) : Json :=
  let extra : List (String × Json) := match f.probe with
    | .link present label =>
      ("exists", .bool present) :: (match label with
        | some label => [("alias", .string label)]
        | none => [])
    | _ => []
  .object (("type", .string f.facet.name) :: extra ++
    [("value", .string f.value), ("reversed", .bool f.reversed)])

/-- A facet by its name or its place. -/
def facetOfJson? : Json → Option Facet
  | .string name => Facet.ofName? name
  | v => v.word?.bind (Facet.all[·]?)

/-- A label, which may be null. -/
def labelOfJson? : Json → Option (Option String)
  | .null => some none
  | .string s => some (some s)
  | _ => none

/-- What a facet asks for, with the fields of a link. -/
def probeOfFields? (fields : List (String × Json)) : Facet → Option Probe
  | .tag => some .tag
  | .folder => some .folder
  | .link => do
    let present ← (← Json.required? fields "exists").bool?
    let label ← Json.optional? fields "alias" labelOfJson? none
    some (.link present label)
  | .backlink => some .backlink
  | .text => some .text

/-- The filter that an object stands for, nested in a document that leaves room for `depth`
levels. -/
def ofJson? (depth : Nat) (v : Json) : Option Filter := do
  let .object fields := v | none
  if !v.sound depth then none
  let facet ← facetOfJson? (← Json.required? fields "type")
  let probe ← probeOfFields? fields facet
  let value ← (← Json.required? fields "value").string?
  let reversed ← Json.optional? fields "reversed" Json.bool? false
  some { probe, value, reversed }

end NoteSearch.Filter

import NoteSearch.Proofs.Filter.Objects
import NoteSearch.Session.Selection

/-!
# Selections that are stored

A filter and a selection are read back from what is written of them, so what is read is written as
before. Only suggestions are lost.
-/
namespace NoteSearch
open Search Json

namespace Search.SortChoice

theorem optionOfJson?_toJson (sort : Option SortChoice) :
    optionOfJson? ((sort.map toJson).getD .null) = some sort := by
  cases sort with
  | none => rfl
  | some choice =>
    obtain ⟨key, reverse⟩ := choice
    cases key <;> rfl

theorem isPlain_toJson (sort : Option SortChoice) :
    ((sort.map toJson).getD .null).IsPlain := by
  cases sort with
  | none => exact .null
  | some choice => exact .object (by simp [IsPlain.string, IsPlain.bool])

end Search.SortChoice

namespace Selection

theorem filtersOfJson?_map (filters : List Filter) :
    filtersOfJson? (.array (filters.map Filter.toJson)) = some filters :=
  mapM_map_eq_some (fun f => f.ofJson?_toJson (depthLimit - 3)) filters

theorem ofJson?_toJson (s : Selection) :
    ofJson? s.toJson = some { filters := s.filters, sort := s.sort } := by
  let fields : List (String × Json) := [("filters", .array (s.filters.map Filter.toJson)),
    ("sort", (s.sort.map SortChoice.toJson).getD .null)]
  have hfilters : required? fields "filters" = some (.array (s.filters.map Filter.toJson)) := rfl
  have hsort : optional? fields "sort" SortChoice.optionOfJson? none = some s.sort :=
    SortChoice.optionOfJson?_toJson s.sort
  change ofJson? (.object fields) = _
  simp only [ofJson?, hfilters, hsort, Option.bind_eq_bind, Option.bind_some, filtersOfJson?_map]

theorem isPlain_toJson (s : Selection) : s.toJson.IsPlain := by
  have hfilters : (Json.array (s.filters.map Filter.toJson)).IsPlain := by
    refine .array fun v hv => ?_
    obtain ⟨f, -, rfl⟩ := List.mem_map.1 hv
    exact f.isPlain_toJson
  refine .object fun field hfield => ?_
  simp only [List.mem_cons, List.not_mem_nil, or_false] at hfield
  obtain rfl | rfl := hfield
  · exact hfilters
  · exact SortChoice.isPlain_toJson s.sort

/-- The JSON form of filters and selections is lossless. An object that has a filter's fields, in
any order and among others that mean nothing, with or without a reversal that is false, is read
from its own text, and it stands for the filter; so does what the filter itself is written as. What
a selection is written as is read as a selection of the same filters in the same order, sorted alike
and without suggestions, and that one is written as before. -/
theorem json_loses_nothing :
    (∀ (f : Filter) (fields : List (String × Json)), Filter.Describes fields f →
      Json.parse (Json.object fields).compact = some (.object fields) ∧
        Filter.ofJson? Json.depthLimit (.object fields) = some f) ∧
    (∀ f : Filter,
      (Json.parse f.toJson.compact).bind (Filter.ofJson? Json.depthLimit) = some f) ∧
    ∀ s : Selection, ∃ t, (Json.parse s.text).bind Selection.ofJson? = some t ∧
      t.filters = s.filters ∧ t.sort = s.sort ∧ t.suggestions = [] ∧ t.text = s.text := by
  refine ⟨fun f fields h => ⟨h.parse_compact, h.ofJson?_eq (depthLimit - 1)⟩, fun f => ?_,
    fun s => ?_⟩
  · rw [f.isPlain_toJson.parse_compact]
    exact f.ofJson?_toJson (depthLimit - 1)
  · refine ⟨{ filters := s.filters, sort := s.sort }, ?_, rfl, rfl, rfl, rfl⟩
    rw [text, s.isPlain_toJson.parse_compact]
    exact s.ofJson?_toJson

/-- A link in an object that is turned round, without a reversal, behind a field that is none of
its own. -/
theorem json_loses_no_link :
    let fields : List (String × Json) := [("note", .null), ("value", .string "a.md"),
      ("alias", .string "Home"), ("exists", .bool false), ("type", .string "link")]
    Filter.Describes fields ⟨.link false (some "Home"), "a.md", false⟩ ∧
      Json.parse (Json.object fields).compact = some (.object fields) ∧
      Filter.ofJson? Json.depthLimit (.object fields) =
        some ⟨.link false (some "Home"), "a.md", false⟩ := by
  intro fields
  have hdescribes : Filter.Describes fields ⟨.link false (some "Home"), "a.md", false⟩ := by
    refine ⟨_, _, [("note", .null)], rfl, .inr ⟨rfl, rfl⟩, fields.reverse_perm.symm, ?_⟩
    simp [Filter.ownNames, IsScalar.null]
  exact ⟨hdescribes, json_loses_nothing.1 _ fields hdescribes⟩

end Selection
end NoteSearch

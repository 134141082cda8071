import NoteSearch.Proofs.Query.RoundTrip
import NoteSearch.Proofs.Vault.Resolved
import NoteSearch.Workspace.Store

/-!
# Which links are marked as missing

A filter on a link is marked by looking for its value among the paths, to the letter. A query for
links resolves the value first. So the mark says whether the value leads to a note only as far as
the two ways of looking agree.
-/
namespace NoteSearch
open Vault

namespace Vault

/-- The value is not the path of a note, and yet it leads to one. -/
structure IsOverlooked (paths : List String) (value : String) : Prop where
  not_path : value ∉ paths
  leads : LeadsSomewhere paths value

/-- The value is the path of a note, and yet it leads nowhere. -/
structure IsStranded (paths : List String) (value : String) : Prop where
  path : value ∈ paths
  leads_nowhere : ¬ LeadsSomewhere paths value

/-- Only paths with white space around them or slashes before them are stranded. -/
theorem not_isStranded {paths : List String} {value : String}
    (hplain : plainTarget value = value.toList) : ¬ IsStranded paths value := fun h =>
  h.leads_nowhere (isSome_resolve_iff.1 (by rw [resolve_of_mem hplain h.path]; rfl))

end Vault

namespace Store

/-- Only whether the target is marked as present may change in a filter on a link. It is marked so
if its value is, to the letter, the path of a note. This says whether the value leads to a note
except where the value is overlooked or stranded; and of a value without white space around it and
slashes before it this says whether the value leads to the note of that very path. -/
theorem present_iff_resolves_iff (s : Store) (found : Bool) (label : Option String)
    (value : String) (reversed : Bool) :
    ∃ present, s.resolveLink ⟨.link found label, value, reversed⟩ =
        ⟨.link present label, value, reversed⟩ ∧
      (present = true ↔ value ∈ s.catalogue.paths) ∧
      ((present = true ↔ (s.catalogue.resolve value).isSome = true) ↔
        ¬ IsOverlooked s.catalogue.paths value ∧ ¬ IsStranded s.catalogue.paths value) ∧
      (plainTarget value = value.toList → ¬ IsStranded s.catalogue.paths value ∧
        (present = true ↔ s.catalogue.resolve value = some value)) := by
  have hpresent := @Catalogue.contains_iff s.catalogue value
  refine ⟨s.catalogue.contains value, rfl, hpresent, ?_, fun hplain => ⟨not_isStranded hplain, ?_⟩⟩
  · rw [hpresent, Catalogue.resolve, isSome_resolve_iff]
    constructor
    · exact fun hsame => ⟨fun h => h.not_path (hsame.2 h.leads),
        fun h => h.leads_nowhere (hsame.1 h.path)⟩
    · rintro ⟨hseen, hled⟩
      exact ⟨fun hpath => by_contra fun hnowhere => hled ⟨hpath, hnowhere⟩,
        fun hleads => by_contra fun hpath => hseen ⟨hpath, hleads⟩⟩
  · rw [hpresent]
    exact ⟨resolve_of_mem hplain, mem_of_resolve⟩

/-- A link that leaves out the ending is marked as missing, although it leads to a note and the
query of the filter finds what links to that note. -/
theorem resolveLink_overlooks_ending :
    let s := Store.memory
      (Memory.ofEdits [.write "alpha.md" "" {} {}, .write "b.md" "see [[alpha]]" {} {}])
    let f : Filter := ⟨.link true none, "alpha", false⟩
    s.resolveLink f = ⟨.link false none, "alpha", false⟩ ∧
      s.catalogue.resolve f.value = some "alpha.md" ∧
      ∃ hits, s.catalogue.answer (Query.compile [f]) = .ok hits ∧ hits.map (·.path) = ["b.md"] := by
  intro s f
  have hread : Query.read (Query.compile [f]) = .ok [⟨.link, "alpha", false⟩] :=
    Query.read_compile (by decide)
  refine ⟨by decide +kernel, by decide +kernel,
    s.catalogue.select [⟨.link, "alpha", false⟩], ?_, by decide +kernel⟩
  rw [Catalogue.answer, hread]

end Store
end NoteSearch

import Mathlib.Data.List.Forall2
import NoteSearch.Proofs.Query.Grammar

/-!
# From filters to terms and back

The query of some filters is read as the terms that the filters stand for just when the value of
each of them can stand in a query. One value that cannot is never made good by its neighbours.
-/
namespace NoteSearch
open Query

/-- The values of this facet that can stand in a query. Those of texts never have to. -/
def Facet.Renders (reversed : Bool) (value : List Char) : Facet → Prop
  | .tag => TermKind.tag.Carries reversed value
  | .folder => TermKind.folder.Carries reversed value
  | .link => TermKind.link.Carries reversed value
  | .backlink => TermKind.outgoing.Carries reversed value
  | .text => True

instance (reversed : Bool) (value : List Char) :
    (facet : Facet) → Decidable (facet.Renders reversed value)
  | .tag => inferInstanceAs (Decidable (TermKind.tag.Carries reversed value))
  | .folder => inferInstanceAs (Decidable (TermKind.folder.Carries reversed value))
  | .link => inferInstanceAs (Decidable (TermKind.link.Carries reversed value))
  | .backlink => inferInstanceAs (Decidable (TermKind.outgoing.Carries reversed value))
  | .text => inferInstanceAs (Decidable True)

/-- The filter can be asked for in a query without being taken for something else. -/
def Filter.IsRenderable (f : Filter) : Prop := f.facet.Renders f.reversed f.value.toList

instance (f : Filter) : Decidable f.IsRenderable :=
  inferInstanceAs (Decidable (f.facet.Renders f.reversed f.value.toList))

namespace Query

/-- The term asks for what the filter asks for. -/
structure Term.StandsFor (t : Term) (f : Filter) : Prop where
  kind : TermKind.ofFacet? f.facet = some t.kind
  target : t.target = f.value
  negated : t.negated = f.reversed

theorem isText_iff {f : Filter} : f.isText = true ↔ f.facet = .text := by
  cases hp : f.probe <;> simp [Filter.isText, Filter.facet, Probe.facet, hp]

theorem ofFilter?_eq_some_iff {f : Filter} {t : Term} :
    Term.ofFilter? f = some t ↔ t.StandsFor f := by
  simp only [Term.ofFilter?, Option.map_eq_some_iff]
  constructor
  · rintro ⟨kind, hkind, rfl⟩
    exact ⟨hkind, rfl, rfl⟩
  · rintro ⟨hkind, htarget, hnegated⟩
    exact ⟨t.kind, hkind, by rw [← htarget, ← hnegated]⟩

theorem ofFilter?_eq_none_iff {f : Filter} : Term.ofFilter? f = none ↔ f.isText = true := by
  rw [isText_iff]
  cases hf : f.facet <;> simp [Term.ofFilter?, TermKind.ofFacet?, hf]

theorem isText_eq_false {f : Filter} {t : Term} (h : Term.ofFilter? f = some t) :
    f.isText = false := by
  rw [← Bool.not_eq_true, ← ofFilter?_eq_none_iff, h]
  simp

/-- Exactly the filters that are not on text have terms, each its own. -/
theorem forall₂_standsFor_iff {filters : List Filter} {terms : List Term} :
    List.Forall₂ (fun f t => Term.StandsFor t f) (filters.filter (!·.isText)) terms ↔
      filters.filterMap Term.ofFilter? = terms := by
  induction filters generalizing terms with
  | nil => simp [eq_comm]
  | cons f filters ih =>
    cases hterm : Term.ofFilter? f with
    | none =>
      have htext := ofFilter?_eq_none_iff.1 hterm
      simp [htext, hterm, ih]
    | some term =>
      have htext := isText_eq_false hterm
      rw [List.filter_cons_of_pos (by simp [htext]), List.filterMap_cons_some hterm]
      cases terms with
      | nil => simp
      | cons other terms =>
        rw [List.forall₂_cons, ih, ← ofFilter?_eq_some_iff, hterm]
        simp

theorem isRenderable_iff {f : Filter} :
    f.IsRenderable ↔ ∀ t, Term.ofFilter? f = some t → t.IsReadable := by
  simp only [Filter.IsRenderable, Term.ofFilter?, Term.IsReadable]
  cases f.facet <;> simp [TermKind.ofFacet?, Facet.Renders]

/-- The terms of filters whose values can stand in a query are read back. -/
theorem read_compile {filters : List Filter}
    (h : ∀ f ∈ filters, f.isText = false → f.IsRenderable) :
    read (compile filters) = .ok (filters.filterMap Term.ofFilter?) := by
  rw [read_eq_ok_iff]
  by_cases hnil : filters.filterMap Term.ofFilter? = []
  · refine .inl ⟨?_, hnil⟩
    rw [compile, hnil]
    rfl
  · refine .inr ⟨hnil, fun t ht => ?_, rfl⟩
    obtain ⟨f, hf, hterm⟩ := List.mem_filterMap.1 ht
    exact isRenderable_iff.1 (h f hf (isText_eq_false hterm)) t hterm

/-- A query is read as the terms of the filters it was compiled from, one for each that is not on
text and in their order, if and only if the value of each of these can stand in a query. -/
theorem read_compile_iff (filters : List Filter) :
    (∃ terms, read (compile filters) = .ok terms ∧
      List.Forall₂ (fun f t => Term.StandsFor t f) (filters.filter (!·.isText)) terms) ↔
    ∀ f ∈ filters, f.isText = false → f.IsRenderable := by
  constructor
  · rintro ⟨terms, hread, hstands⟩ f hf htext
    obtain rfl := forall₂_standsFor_iff.1 hstands
    rw [isRenderable_iff]
    intro t ht
    have hmem : t ∈ filters.filterMap Term.ofFilter? := List.mem_filterMap.2 ⟨f, hf, ht⟩
    obtain ⟨-, hnil⟩ | ⟨-, hall, -⟩ := read_eq_ok_iff.1 hread
    · rw [hnil] at hmem
      simp at hmem
    · exact hall t hmem
  · intro hrender
    exact ⟨filters.filterMap Term.ofFilter?, read_compile hrender, forall₂_standsFor_iff.2 rfl⟩

end Query
end NoteSearch

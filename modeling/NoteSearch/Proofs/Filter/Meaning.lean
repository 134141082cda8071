import Mathlib.Data.List.Infix
import NoteSearch.Proofs.Query.RoundTrip
import NoteSearch.Proofs.Vault.Memory
import NoteSearch.Search.Needle

/-!
# What filters mean

The meaning of a filter on a document of a vault in memory is said here of the body and the path of
the document, without queries, terms or catalogues of links. A term holds of a document
just when the filter it stands for means the document, and a body passes a filter on text likewise.
-/
namespace NoteSearch
open Text Vault

/-- Parts between slashes: the text is the first part, or goes on from it behind a slash. -/
def Vault.Path.IsWithin (part text : List Char) : Prop := text = part ∨ part ++ ['/'] <+: text

instance (part text : List Char) : Decidable (Path.IsWithin part text) :=
  inferInstanceAs (Decidable (_ ∨ _))

theorem Vault.Path.within_iff {part text : List Char} :
    within part text = true ↔ IsWithin part text := by
  unfold within IsWithin
  cases hafter : after? part text with
  | none =>
    rw [after?_eq_none_iff] at hafter
    constructor
    · simp
    · rintro (rfl | hprefix)
      · exact absurd (List.prefix_refl _) hafter
      · exact absurd ((List.prefix_append part ['/']).trans hprefix) hafter
  | some rest =>
    obtain rfl := after?_eq_some_iff.1 hafter
    cases rest with
    | nil => simp
    | cons c rest => simp [List.cons_prefix_cons, @eq_comm _ '/' c]

/-- What the value of a facet says of a document, where `m` is the vault of the document. -/
def Facet.Means (m : Memory) (d : Document) (value : String) : Facet → Prop
  | .tag =>
    let plain := lower (trim value.toList)
    ∃ tag ∈ Markdown.tags d.body,
      Path.IsWithin (if ['#'] <+: plain then plain else '#' :: plain) (lower tag.toList)
  | .folder =>
    Path.trimSlashes value.toList = [] ∨
      Path.IsWithin (Path.trimSlashes value.toList) d.note.path.toList
  | .link => ∃ link ∈ Markdown.links d.body,
      (m.catalogue.resolve link.target).getD link.target =
        (m.catalogue.resolve value).getD (trimmed value)
  | .backlink => ∃ source ∈ m.documents, m.catalogue.resolve value = some source.note.path ∧
      ∃ link ∈ Markdown.links source.body, m.catalogue.resolve link.target = some d.note.path
  | .text => lower value.toList <:+: lower d.body.toList

instance (m : Memory) (d : Document) (value : String) :
    (facet : Facet) → Decidable (facet.Means m d value)
  | .tag => inferInstanceAs (Decidable (∃ tag ∈ Markdown.tags d.body, Path.IsWithin _ _))
  | .folder => inferInstanceAs (Decidable (_ ∨ _))
  | .link => inferInstanceAs (Decidable (∃ link ∈ Markdown.links d.body, _))
  | .backlink => inferInstanceAs (Decidable (∃ source ∈ m.documents, _ ∧ ∃ link ∈ _, _))
  | .text => inferInstanceAs (Decidable (_ <:+: _))

/-- What the filter says of a document, its reversal aside. -/
def Filter.Means (m : Memory) (d : Document) (f : Filter) : Prop := f.facet.Means m d f.value

instance (m : Memory) (d : Document) (f : Filter) : Decidable (f.Means m d) :=
  inferInstanceAs (Decidable (f.facet.Means m d f.value))

/-! ## Terms and needles -/

section
variable {m : Memory} {d : Document} {f : Filter}

theorem mem_linksOf_iff (hd : d ∈ m.documents) {link : Link} :
    link ∈ m.catalogue.linksOf d.note.path ↔
      ∃ raw ∈ Markdown.links d.body, Link.ofRaw m.catalogue.paths raw = link := by
  rw [Memory.linksOf_of_mem hd, Memory.links_entry hd, List.mem_map]

/-- The value of a term on tags is compared as the filter means it. -/
theorem comparedTag_eq (value : String) :
    Catalogue.comparedTag value =
      if ['#'] <+: lower (trim value.toList) then lower (trim value.toList)
      else '#' :: lower (trim value.toList) := by
  have hmarked : (lower (trim value.toList)).head? = some '#' ↔
      ['#'] <+: lower (trim value.toList) := by
    cases lower (trim value.toList) with
    | nil => simp
    | cons c cs => simp [List.cons_prefix_cons, @eq_comm _ c]
  unfold Catalogue.comparedTag
  simp only [hmarked]

/-- A term holds of a document if and only if the filter it stands for means the document. -/
theorem holds_iff (hd : d ∈ m.documents) {t : Query.Term} (ht : t.StandsFor f) :
    m.catalogue.holds (m.entry d) t = true ↔ f.Means m d := by
  have hkind := ht.kind
  have hpath : (m.entry d).note.path = d.note.path := rfl
  unfold Filter.Means Catalogue.holds
  rw [ht.target]
  cases hfacet : f.facet with
  | text => simp [hfacet, Query.TermKind.ofFacet?] at hkind
  | tag =>
    simp only [hfacet, Query.TermKind.ofFacet?, Option.some.injEq] at hkind
    simp only [← hkind, Facet.Means, comparedTag_eq, List.any_eq_true, Path.within_iff,
      Memory.tags_entry hd]
  | folder =>
    simp only [hfacet, Query.TermKind.ofFacet?, Option.some.injEq] at hkind
    simp only [← hkind, Facet.Means, Bool.or_eq_true, List.isEmpty_iff, Path.within_iff, hpath]
  | link =>
    simp only [hfacet, Query.TermKind.ofFacet?, Option.some.injEq] at hkind
    simp only [← hkind, Facet.Means, List.any_eq_true, beq_iff_eq, hpath,
      mem_linksOf_iff hd]
    constructor
    · rintro ⟨_, ⟨raw, hraw, rfl⟩, htarget⟩
      exact ⟨raw, hraw, (Link.target_ofRaw _ raw).symm.trans htarget⟩
    · rintro ⟨raw, hraw, htarget⟩
      exact ⟨_, ⟨raw, hraw, rfl⟩, (Link.target_ofRaw _ raw).trans htarget⟩
  | backlink =>
    simp only [hfacet, Query.TermKind.ofFacet?, Option.some.injEq] at hkind
    simp only [← hkind, Facet.Means, hpath]
    cases hresolve : m.catalogue.resolve f.value with
    | none => simp
    | some path =>
      obtain ⟨source, hsource, rfl⟩ := Memory.exists_of_resolve hresolve
      simp only [List.any_eq_true, mem_linksOf_iff hsource]
      constructor
      · rintro ⟨_, ⟨raw, hraw, rfl⟩, hleads⟩
        exact ⟨source, hsource, rfl, raw, hraw, (Link.leadsTo_ofRaw_iff _ raw _).1 hleads⟩
      · rintro ⟨other, hother, hsame, raw, hraw, hleads⟩
        obtain rfl := Memory.eq_of_path_eq hother hsource (Option.some.inj hsame).symm
        exact ⟨_, ⟨raw, hraw, rfl⟩, (Link.leadsTo_ofRaw_iff _ raw _).2 hleads⟩

/-- What a filter on text asks of a body is what the filter means. -/
theorem occurs_iff_means (htext : f.isText = true) :
    occurs (lower f.value.toList) (lower d.body.toList) = true ↔ f.Means m d := by
  unfold Filter.Means
  rw [Query.isText_iff.1 htext]
  exact occurs_iff

end

end NoteSearch

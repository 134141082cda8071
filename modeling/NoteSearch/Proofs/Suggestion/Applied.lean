import NoteSearch.Proofs.Filter.Marked
import NoteSearch.Proofs.Search.Conjunction
import NoteSearch.Proofs.Suggestion.Origin
import NoteSearch.Proofs.Vault.Ancestors

/-!
# Suggestions as queries

A suggestion that is picked becomes a query of one term. Queries have no escapes, so it is read back
unless its value holds what closes the term. Tags and the targets that lead nowhere never do; paths
may.
-/
namespace NoteSearch
open Search Vault Text Query

/-- What closes a value of the facet in a query comes up nowhere in the value, nor with its end. -/
def Facet.Encloses (value : List Char) : Facet → Prop
  | .folder => '"' ∉ value
  | .link => ¬ "]]".toList <:+: value ∧ ¬ "]".toList <:+ value
  | .backlink => ¬ "]])".toList <:+: value
  | .tag | .text => True

instance (value : List Char) : (facet : Facet) → Decidable (facet.Encloses value)
  | .folder => inferInstanceAs (Decidable (_ ∉ value))
  | .link => inferInstanceAs (Decidable (_ ∧ _))
  | .backlink => inferInstanceAs (Decidable (¬ _))
  | .tag | .text => inferInstanceAs (Decidable True)

/-- What closes a link is made of brackets. -/
theorem Facet.encloses_link {value : List Char} (h : ']' ∉ value) : Facet.link.Encloses value :=
  ⟨fun hpair => h (hpair.subset (by simp)), fun hend => h (hend.subset (by simp))⟩

theorem Facet.encloses_backlink {value : List Char} (h : ']' ∉ value) :
    Facet.backlink.Encloses value :=
  fun hmark => h (hmark.subset (by simp))

namespace Query

/-- A filter alone is read back if and only if its value can stand in a query. -/
theorem exists_read_compile_singleton_iff {f : Filter} :
    (∃ t, read (compile [f]) = .ok [t] ∧ t.StandsFor f) ↔ f.isText = false ∧ f.IsRenderable := by
  constructor
  · rintro ⟨t, hread, hstands⟩
    have hterm := ofFilter?_eq_some_iff.2 hstands
    refine ⟨isText_eq_false hterm, isRenderable_iff.2 fun t' ht' => ?_⟩
    obtain ⟨-, hnil⟩ | ⟨-, hall, -⟩ := read_eq_ok_iff.1 hread
    · cases hnil
    · rw [hterm, Option.some.injEq] at ht'
      exact hall t' (by simp [ht'])
  · rintro ⟨htext, hrender⟩
    obtain ⟨t, hterm⟩ : ∃ t, Term.ofFilter? f = some t := by
      rw [← Option.isSome_iff_exists, Option.isSome_iff_ne_none, ne_eq, ofFilter?_eq_none_iff,
        htext]
      exact Bool.false_ne_true
    refine ⟨t, ?_, ofFilter?_eq_some_iff.1 hterm⟩
    rw [read_compile (by simpa using fun _ => hrender), List.filterMap_cons_some hterm]
    rfl

end Query

namespace Suggestion

variable {m : Memory} {f : Filter}

theorem Origin.reversed_eq_false (h : Origin m f) : f.reversed = false := by
  cases h <;> rfl

theorem Origin.isText_eq_false (h : Origin m f) : f.isText = false := by
  cases h <;> rfl

/-- Of a suggestion only what closes its term can keep it from standing in a query. -/
theorem Origin.isRenderable_iff (h : Origin m f) (hne : f.value ≠ "") :
    f.IsRenderable ↔ f.facet.Encloses f.value.toList := by
  have hnil : f.value.toList ≠ [] := by simpa using hne
  cases h with
  | tag hd htag => exact iff_of_true (isMarked_of_mem_tags htag).renders trivial
  | folder => exact and_iff_right hnil
  | note => exact and_iff_right hnil
  | labelled => exact and_iff_right hnil
  | missing => exact and_iff_right hnil
  | backlink => exact and_iff_right hnil

/-- Tags, and the targets that lead nowhere, never hold what closes their terms. -/
theorem Origin.encloses_of_missing (h : Origin m f)
    (hsource : f.probe = .tag ∨ f.probe = .link false none) :
    f.facet.Encloses f.value.toList := by
  cases h with
  | tag => trivial
  | missing hsource hraw hnowhere =>
    refine Facet.encloses_link fun hmem => ?_
    exact absurd ((Markdown.isPlain_of_mem_links hraw).target_chars _ hmem) (by decide)
  | folder | note | labelled | backlink => simp at hsource

/-- The other suggestions are paths of documents and parts of them. -/
theorem Origin.encloses_of_paths (h : Origin m f)
    (hpaths : ∀ d ∈ m.documents, '"' ∉ d.note.path.toList ∧ ']' ∉ d.note.path.toList) :
    f.facet.Encloses f.value.toList := by
  cases h with
  | tag => trivial
  | missing hsource hraw hnowhere =>
    exact Origin.encloses_of_missing (.missing hsource hraw hnowhere) (.inr rfl)
  | folder hd hfolder =>
    obtain ⟨text, htext, rfl⟩ := List.mem_map.1 hfolder
    intro hmem
    rw [String.toList_ofList] at hmem
    exact (hpaths _ hd).1 ((Path.prefix_of_mem_ancestors htext).subset hmem)
  | note hd => exact Facet.encloses_link (hpaths _ hd).2
  | labelled hsource hd => exact Facet.encloses_link (hpaths _ hd).2
  | backlink hd => exact Facet.encloses_backlink (hpaths _ hd).2

/-- Every suggestion is read back as the one term that it stands for, not negated, if and only if
its value does not hold what closes the term. Tags and targets that lead nowhere never do, and no
suggestion does where no path holds a quotation mark or a closing bracket. A run with
the suggestion as its only filter then gives the documents that it means, in the order that is
asked for, unless the run is superseded. -/
theorem read_suggestion_iff (edits : List Memory.Edit) (f : Filter)
    (h : f ∈ collect (Memory.ofEdits edits).catalogue) :
    let m := Memory.ofEdits edits
    ((∃ t, read (compile [f]) = .ok [t] ∧ t.StandsFor f ∧ t.negated = false) ↔
      f.facet.Encloses f.value.toList) ∧
    (f.probe = .tag ∨ f.probe = .link false none ∨
        (∀ d ∈ m.documents, '"' ∉ d.note.path.toList ∧ ']' ∉ d.note.path.toList) →
      f.facet.Encloses f.value.toList) ∧
    (f.facet.Encloses f.value.toList →
      ∀ (request : Request) (course : Course) (ticket : Ticket), request.filters = [f] →
        ∃ hits, hits.Perm ((m.documents.filter (f.Means m ·)).map m.hitOf) ∧
          ∀ s, ((run m.backend course request ticket).run.run s).1 = .ok hits ∨
            ((run m.backend course request ticket).run.run s).1 = .error .superseded) := by
  intro m
  obtain ⟨horigin, hne⟩ := origin_of_mem_collect h
  have hrender := horigin.isRenderable_iff hne
  have htext := horigin.isText_eq_false
  refine ⟨?_, ?_, fun hencloses request course ticket hrequest => ?_⟩
  · rw [← hrender]
    constructor
    · rintro ⟨t, hread, hstands, -⟩
      exact (exists_read_compile_singleton_iff.1 ⟨t, hread, hstands⟩).2
    · intro hrenders
      obtain ⟨t, hread, hstands⟩ := exists_read_compile_singleton_iff.2 ⟨htext, hrenders⟩
      exact ⟨t, hread, hstands, hstands.negated.trans horigin.reversed_eq_false⟩
  · rintro (htag | hmissing | hpaths)
    · exact horigin.encloses_of_missing (.inl htag)
    · exact horigin.encloses_of_missing (.inr hmissing)
    · exact horigin.encloses_of_paths hpaths
  · have hneedles : request.needles = [] := by
      simp [Request.needles, hrequest, Needle.ofFilter?, htext]
    have hanswer : m.backend.answer (compile request.filters) =
        .ok (m.catalogue.select (request.filters.filterMap Term.ofFilter?)) :=
      m.catalogue.answer_compile (by simpa [hrequest] using fun _ => hrender.2 hencloses)
    have hfound := m.kept_perm request
    have hmeant : m.meant request.filters = m.documents.filter (f.Means m ·) := by
      simp [Memory.meant, hrequest, horigin.reversed_eq_false]
    rw [Request.kept, hneedles, List.isEmpty_nil, if_pos rfl, hmeant] at hfound
    exact ⟨_, (sortHits_perm request.sort _).trans hfound, gives_run rfl hneedles hanswer⟩

/-- What closes a link stands in the path, but not what closes a backlink. -/
theorem read_suggestion_with_brackets :
    let m := Memory.ofEdits [.write "x]].md" "see [[b]]" {} {}, .write "b.md" "" {} {}]
    let f : Filter := ⟨.backlink, "x]].md", false⟩
    f ∈ collect m.catalogue ∧
      (∃ t, read (compile [f]) = .ok [t] ∧ t.StandsFor f ∧ t.negated = false) ∧
      (m.documents.filter (f.Means m ·)).map (·.note.path) = ["b.md"] ∧
      ∃ hits, hits.Perm ((m.documents.filter (f.Means m ·)).map m.hitOf) ∧
        ∀ s, ((run m.backend (.prompt m.read) { filters := [f] } .unlimited).run.run s).1 =
            .ok hits ∨
          ((run m.backend (.prompt m.read) { filters := [f] } .unlimited).run.run s).1 =
            .error .superseded := by
  intro m f
  have hmem : f ∈ collect m.catalogue := by
    rw [mem_collect_iff]
    decide +kernel
  have hencloses : f.facet.Encloses f.value.toList := by decide
  obtain ⟨hread, -, hrun⟩ := read_suggestion_iff _ f hmem
  exact ⟨hmem, hread.2 hencloses, by decide +kernel, hrun hencloses _ _ _ rfl⟩

/-- The query of a folder that is suggested breaks off where a quotation mark stands in it. -/
theorem suggested_folder_breaks_query :
    let m := Memory.ofEdits [.write "a\"b/c.md" "" {} {}]
    let f : Filter := ⟨.folder, "a\"b", false⟩
    f ∈ collect m.catalogue ∧
      (¬ ∃ t, read (compile [f]) = .ok [t] ∧ t.StandsFor f ∧ t.negated = false) ∧
      m.catalogue.answer (compile [f]) = .error (.rejected (.malformed 3 noSeparator)) := by
  intro m f
  have hmem : f ∈ collect m.catalogue := by
    rw [mem_collect_iff]
    decide +kernel
  refine ⟨hmem, ?_, ?_⟩
  · rintro ⟨t, hread, hstands, -⟩
    have hrender := (exists_read_compile_singleton_iff.1 ⟨t, hread, hstands⟩).2
    exact absurd hrender (by decide)
  · decide +kernel

end Suggestion
end NoteSearch

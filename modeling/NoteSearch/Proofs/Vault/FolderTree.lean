import NoteSearch.Proofs.Filter.Meaning
import NoteSearch.Proofs.Search.Run
import NoteSearch.Proofs.Search.Sorting
import NoteSearch.Proofs.Vault.Ageless
import NoteSearch.Proofs.Vault.Ancestors
import NoteSearch.Proofs.Vault.Answers

/-!
# Folders and what lies in them

What a query for a folder finds is said by the folders around the notes. So every folder that is
around a note is found to hold the note, and so is the folder that is shown of a result.
-/
namespace NoteSearch
open Search Vault Query Text

/-! ## Results of searches -/

/-- The results of a search are among the candidates. -/
theorem Search.subset_of_yields_run {backend : Backend} {course : Course} {request : Request}
    {ticket : Ticket} {s s' : Signals} {hits : List Hit}
    (h : Yields (run backend course request ticket) s hits s') :
    ∃ candidates, backend.answer (compile request.filters) = .ok candidates ∧
      hits ⊆ candidates := by
  obtain ⟨-, -, candidates, hanswer, -, kept, s₁, hkept, -, -, rfl⟩ := yields_run_iff.1 h
  refine ⟨candidates, hanswer, List.Subset.trans (sortHits_perm request.sort kept).subset ?_⟩
  split at hkept
  · rw [(yields_pure_iff.1 hkept).1]
    exact List.Subset.refl _
  · obtain ⟨verdicts, -, rfl⟩ := yields_map_iff.1 hkept
    intro hit hmem
    obtain ⟨x, hx, rfl⟩ := List.mem_map.1 hmem
    exact List.fst_mem_of_mem_zipIdx (List.mem_filter.1 hx).1

namespace Vault

/-! ## Folders of notes -/

/-- The note lies in the folder or its path is that of the folder, where the empty folder holds all
notes. -/
def Entry.LiesIn (folder : String) (e : Entry) : Prop :=
  folder = "" ∨ e.note.path = folder ∨ folder ∈ e.note.ancestors

instance (folder : String) : DecidablePred (Entry.LiesIn folder) :=
  fun _ => inferInstanceAs (Decidable (_ ∨ _ ∨ _))

/-- A folder without the slashes at its ends. -/
def withoutEnds (folder : String) : String := String.ofList (Path.trimSlashes folder.toList)

/-- The folder has slashes at its ends, and between them what has none there. -/
theorem withoutEnds_eq_iff {folder core : String} : withoutEnds folder = core ↔
    core.toList.head? ≠ some '/' ∧ core.toList.getLast? ≠ some '/' ∧
      ∃ before after,
        List.replicate before '/' ++ core.toList ++ List.replicate after '/' = folder.toList := by
  rw [← String.toList_inj, withoutEnds, String.toList_ofList, Path.trimSlashes_eq_iff]

theorem mem_note_ancestors_iff {note : Note} {folder : String} :
    folder ∈ note.ancestors ↔ folder.toList ∈ Path.ancestors note.path.toList := by
  rw [Note.ancestors, List.mem_map]
  constructor
  · rintro ⟨text, htext, rfl⟩
    rwa [String.toList_ofList]
  · exact fun h => ⟨folder.toList, h, String.ofList_toList⟩

theorem Entry.liesIn_withoutEnds_iff {folder : String} {e : Entry} :
    e.LiesIn (withoutEnds folder) ↔ Path.trimSlashes folder.toList = [] ∨
      Path.IsWithin (Path.trimSlashes folder.toList) e.note.path.toList := by
  have hpath : e.note.path = withoutEnds folder ↔
      e.note.path.toList = Path.trimSlashes folder.toList := by
    rw [← String.toList_inj, withoutEnds, String.toList_ofList]
  rw [Entry.LiesIn, hpath, mem_note_ancestors_iff, withoutEnds, String.toList_ofList,
    Path.mem_ancestors_iff, Path.IsWithin]
  simp [← String.toList_inj]

/-- A folder that is found around a note holds the note. -/
theorem Entry.liesIn_of_mem_ancestors {e : Entry} {folder : String}
    (hpath : e.note.path.toList.head? ≠ some '/') (h : folder ∈ e.note.ancestors) :
    e.LiesIn (withoutEnds folder) := by
  refine .inr (.inr (mem_note_ancestors_iff.2 ?_))
  rw [withoutEnds, String.toList_ofList]
  exact Path.trimSlashes_mem_ancestors hpath (mem_note_ancestors_iff.1 h)

theorem Note.folder_mem_ancestors {note : Note} (h : note.folder ≠ "") :
    note.folder ∈ note.ancestors := by
  have hparent : note.folder.toList = Path.parent note.path.toList := String.toList_ofList
  rw [mem_note_ancestors_iff, hparent]
  refine Path.parent_mem_ancestors fun hnil => h ?_
  rwa [← String.toList_inj, hparent]

theorem Note.ne_empty_of_mem_ancestors {note : Note} {folder : String}
    (hpath : note.path.toList.head? ≠ some '/') (h : folder ∈ note.ancestors) : folder ≠ "" := by
  rintro rfl
  exact Path.ne_nil_of_mem_ancestors hpath (mem_note_ancestors_iff.1 h) rfl

namespace Catalogue

/-! ## Queries for folders -/

/-- What is found in a folder does not depend on the slashes at its ends. -/
theorem answer_folder (c : Catalogue) {folder : String} (hne : folder ≠ "")
    (hquote : '"' ∉ folder.toList) :
    read (compile [⟨.folder, folder, false⟩]) = .ok [⟨.folder, folder, false⟩] ∧
      c.answer (compile [⟨.folder, folder, false⟩]) =
        .ok (c.hitsOf (Entry.LiesIn (withoutEnds folder))) := by
  have hnil : folder.toList ≠ [] := by simpa using hne
  refine answer_compile_singleton rfl ⟨hnil, hquote⟩ fun e _ => ?_
  simp only [holds, Bool.or_eq_true, List.isEmpty_iff, Path.within_iff,
    Entry.liesIn_withoutEnds_iff]

example :
    let c := ofNotes [Note.ofBody "a//b.md" "" {} {}, Note.ofBody "ab/c.md" "" {} {}]
    (c.answer (compile [⟨.folder, "/a/", false⟩])).map (·.map (·.path)) = .ok ["a//b.md"] := by
  decide +kernel

/-- A folder around a note is answered, with the note. -/
theorem exists_answer_of_mem_ancestors {c : Catalogue} {e : Entry} (he : e ∈ c.entries)
    (hpath : e.note.path.toList.head? ≠ some '/') {folder : String}
    (h : folder ∈ e.note.ancestors) (hquote : '"' ∉ folder.toList) :
    ∃ hits, c.answer (compile [⟨.folder, folder, false⟩]) = .ok hits ∧ c.hit e.note ∈ hits :=
  have hne := e.note.ne_empty_of_mem_ancestors hpath h
  ⟨_, (c.answer_folder hne hquote).2, hit_mem_hitsOf he (e.liesIn_of_mem_ancestors hpath h)⟩

/-- A query for a folder finds all notes if only slashes are written, and otherwise the notes whose
path is the folder or around which it is. The folders are those around the notes and the ones that
were added; each that is around a note whose path does not begin with a slash is found to hold it,
and the folder of a result to hold the result. -/
theorem folders_agree_with_queries (notes : List Note) (folders : List String) :
    let c := (ofNotes notes).withFolders folders
    (∀ folder : String, folder ≠ "" → '"' ∉ folder.toList →
      read (compile [⟨.folder, folder, false⟩]) = .ok [⟨.folder, folder, false⟩] ∧
      c.answer (compile [⟨.folder, folder, false⟩]) =
        .ok (c.hitsOf (Entry.LiesIn (withoutEnds folder)))) ∧
    (∀ folder, folder ∈ c.folders ↔
      (∃ e ∈ c.entries, folder ∈ e.note.ancestors) ∨ folder ∈ folders ∧ folder ≠ "") ∧
    (∀ e ∈ c.entries, e.note.path.toList.head? ≠ some '/' →
      ∀ folder ∈ e.note.ancestors, '"' ∉ folder.toList →
        ∃ hits, c.answer (compile [⟨.folder, folder, false⟩]) = .ok hits ∧
          c.hit e.note ∈ hits) ∧
    ∀ (course : Course) (request : Request) (ticket : Ticket) (s : Signals) (hits : List Hit),
      ((run ⟨true, c.answer⟩ course request ticket).run.run s).1 = .ok hits →
      ∀ hit ∈ hits, hit.path.toList.head? ≠ some '/' → hit.folder ≠ "" →
        '"' ∉ hit.folder.toList →
        ∃ f found, hit.folderFilter? = some f ∧ c.answer (compile [f]) = .ok found ∧
          hit ∈ found := by
  intro c
  refine ⟨fun folder => c.answer_folder, fun folder => ?_,
    fun e he hpath folder => exists_answer_of_mem_ancestors he hpath, ?_⟩
  · rw [mem_folders_withFolders_iff, mem_folders_ofNotes_iff, or_comm]
    rfl
  · intro course request ticket s hits hrun hit hmem hpath hne hquote
    have hyields : Yields (run ⟨true, c.answer⟩ course request ticket) s hits
        (endOf (run ⟨true, c.answer⟩ course request ticket) s).2 := Prod.ext hrun rfl
    obtain ⟨candidates, hanswer, hsubset⟩ := subset_of_yields_run hyields
    obtain ⟨e, he, rfl⟩ := exists_of_mem_answer hanswer (hsubset hmem)
    obtain ⟨found, hfound, hin⟩ :=
      exists_answer_of_mem_ancestors he hpath (e.note.folder_mem_ancestors hne) hquote
    refine ⟨_, found, if_neg ?_, hfound, hin⟩
    simpa using hne

/-- A folder in a folder: each is found to hold the note, and so is the folder of the result that a
search without filters gives. -/
theorem folders_agree_with_queries_for_nested_folders :
    let note := Note.ofBody "a/b/c.md" "" {} {}
    let c := (ofNotes [note]).withFolders ["e", ""]
    c.answer (compile [⟨.folder, "//a/", false⟩]) = .ok (c.hitsOf (Entry.LiesIn "a")) ∧
      ("e" ∈ c.folders ∧ "" ∉ c.folders) ∧
      (∃ hits, c.answer (compile [⟨.folder, "a", false⟩]) = .ok hits ∧ c.hit note ∈ hits) ∧
      ∃ f found, (c.hit note).folderFilter? = some f ∧ c.answer (compile [f]) = .ok found ∧
        c.hit note ∈ found := by
  intro note c
  obtain ⟨hqueries, hfolders, haround, hresults⟩ := folders_agree_with_queries [note] ["e", ""]
  have htrimmed : withoutEnds "//a/" = "a" :=
    withoutEnds_eq_iff.2 ⟨by decide, by decide, 2, 1, by decide⟩
  have hroot : "" ∉ c.folders := by decide
  refine ⟨?_, ⟨(hfolders "e").2 (.inr (by decide)), hroot⟩, ?_, ?_⟩
  · rw [← htrimmed]
    exact (hqueries "//a/" (by decide) (by decide)).2
  · exact haround ⟨note, []⟩ (by decide +kernel) (by decide) "a" (by decide) (by decide)
  · exact hresults { arrivals := fun _ => [] } { filters := [] } .unlimited {} [c.hit note]
      (by decide +kernel) _ (List.mem_singleton_self _) (by decide) (by decide) (by decide)

end Catalogue
end Vault
end NoteSearch

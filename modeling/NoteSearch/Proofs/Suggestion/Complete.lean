import NoteSearch.Proofs.Search.Sorting
import NoteSearch.Proofs.Suggestion.Applied
import NoteSearch.Proofs.Vault.FolderTree
import NoteSearch.Proofs.Vault.TagTree

/-!
# All suggestions of a vault, and their order

A vault gives rise to a filter exactly by its tags, folders, links and documents. Of these filters
those with a value are suggested, each key once. The shortest come first; of one length come first
the tags, then folders, links and backlinks, since that is how they are put together and the sort by
length is stable.
-/
namespace NoteSearch

/-- The place of a facet among all of them: tags, folders, links, backlinks, texts. -/
def Facet.rank (facet : Facet) : Nat := Facet.all.idxOf facet

namespace Suggestion
open Vault Markdown

variable {m : Memory} {f : Filter} {filters : List Filter}

/-! ## The sources of all suggestions -/

/-- A link of a vault in memory, as it is read from a body. -/
theorem ofRaw_mem_links {source : Document} (hsource : source ∈ m.documents)
    {raw : RawLink} (hraw : raw ∈ links source.body) {link : Link}
    (hread : Link.ofRaw m.catalogue.paths raw = link) : link ∈ m.catalogue.links :=
  mem_links_iff.2 ⟨source, hsource, raw, hraw, hread⟩

theorem ofTarget_mem_sources {c : Catalogue} {target : LinkTarget} (h : target ∈ c.linkTargets) :
    ofTarget target ∈ sources c :=
  List.mem_append_left _ (List.mem_append_right _ (List.mem_map_of_mem h))

/-- Whatever a vault gives rise to is among the sources of its suggestions. -/
theorem Origin.mem_sources (h : Origin m f) : f ∈ sources m.catalogue := by
  cases h with
  | @tag d tag hd htag =>
    have hused : tag ∈ m.catalogue.tagUses := by
      rw [Catalogue.mem_tagUses_iff]
      exact ⟨m.entry d, Memory.entry_mem hd, by rwa [Memory.tags_entry hd]⟩
    have hcounted : tag ∈ m.catalogue.tags.map Prod.fst := by
      rwa [Catalogue.map_fst_tags, Order.mem_ofList_iff]
    obtain ⟨counted, hmem, rfl⟩ := List.mem_map.1 hcounted
    simp only [sources, List.mem_append]
    exact .inl (.inl (.inl (List.mem_map_of_mem hmem)))
  | @folder d folder hd hfolder =>
    have hmem : folder ∈ m.catalogue.folders := Memory.mem_folders_iff.2 ⟨d, hd, hfolder⟩
    simp only [sources, List.mem_append]
    exact .inl (.inl (.inr (List.mem_map_of_mem hmem)))
  | @note d hd =>
    have hpath : d.note.path ∈ m.catalogue.paths := Memory.mem_paths_iff.2 ⟨d, hd, rfl⟩
    exact ofTarget_mem_sources (mem_linkTargets_iff.2 (.inl ⟨_, hpath, rfl⟩))
  | @labelled source d raw label hsource hd hraw hlabel hleads =>
    have hlink : ⟨d.note.path, true, some label⟩ ∈ m.catalogue.links :=
      ofRaw_mem_links hsource hraw (Link.ofRaw_eq_iff.2 ⟨hlabel.symm, .inl ⟨rfl, hleads⟩⟩)
    exact ofTarget_mem_sources
      (mem_linkTargets_iff.2 (.inr (.inl ⟨_, hlink, label, rfl, rfl, rfl⟩)))
  | @missing source raw hsource hraw hnowhere =>
    have hlink : ⟨raw.target, false, raw.label⟩ ∈ m.catalogue.links :=
      ofRaw_mem_links hsource hraw
        (Link.ofRaw_eq_iff.2 ⟨rfl, .inr ⟨rfl, hnowhere, rfl⟩⟩)
    exact ofTarget_mem_sources (mem_linkTargets_iff.2 (.inr (.inr ⟨_, hlink, rfl, rfl⟩)))
  | @backlink d hd =>
    have hpath : d.note.path ∈ m.catalogue.paths := Memory.mem_paths_iff.2 ⟨d, hd, rfl⟩
    exact List.mem_append_right _ (List.mem_map_of_mem hpath)

/-- Tags and targets are never empty. -/
theorem Origin.value_ne (h : Origin m f) (hsource : f.probe = .tag ∨ f.probe = .link false none) :
    f.value ≠ "" := by
  cases h with
  | tag hd htag =>
    rintro rfl
    exact absurd (isMarked_of_mem_tags htag).marked (by simp)
  | missing hsource hraw hnowhere => exact (isPlain_of_mem_links hraw).target_ne
  | folder | note | labelled | backlink => simp at hsource

/-! ## Order -/

/-- The sources come in the order of the facets. -/
theorem pairwise_sources (c : Catalogue) :
    (sources c).Pairwise fun f g => f.facet.rank ≤ g.facet.rank := by
  have hranks : (sources c).map (fun f => f.facet.rank) = List.replicate c.tags.length 0 ++
      List.replicate c.folders.length 1 ++ List.replicate c.linkTargets.length 2 ++
      List.replicate c.paths.length 3 := by
    simp only [sources, List.map_append, List.map_map, ← List.map_const']
    rfl
  rw [← List.pairwise_map, hranks]
  simp only [List.pairwise_append, List.pairwise_replicate, List.mem_append, List.mem_replicate]
  grind

/-- What is dropped leaves the rest in order. -/
theorem dedup_sublist (filters : List Filter) : (dedup filters).Sublist filters :=
  (distinct_sublist [] _).trans List.filter_sublist

/-- The shorter values come first, and those of one length as they were. -/
theorem pairwise_byLength {R : Filter → Filter → Prop} (h : filters.Pairwise R) :
    (byLength filters).Pairwise fun f g => f.value.length < g.value.length ∨
      f.value.length = g.value.length ∧ R f g := by
  have hcmp : Std.TransCmp fun f g : Filter => compare f.value.length g.value.length :=
    Order.transCmp_on (fun f : Filter => f.value.length) compare
  have hle : byLength filters =
      filters.mergeSort fun f g => (compare f.value.length g.value.length).isLE := by
    simp only [byLength, ← Nat.isLE_compare, Bool.decide_eq_true]
  rw [hle]
  refine (Order.pairwise_mergeSort h).imp fun hfg => ?_
  rwa [Nat.compare_eq_lt, Nat.compare_eq_eq] at hfg

/-- What a vault in memory suggests has no key twice, no empty value, and nothing reversed or for
texts. The shorter values come first and, of one length, tags before folders, these before links,
and these before backlinks. Everything suggested comes from a tag, a folder, a link or a document of
the vault. The other way round, tags and targets that lead nowhere are never empty; and what comes
from the vault and has a value is suggested, by its key. -/
theorem suggests_all_in_order (edits : List Memory.Edit) :
    let m := Memory.ofEdits edits
    let suggested := collect m.catalogue
    (suggested.map Filter.key).Nodup ∧
    (suggested.Pairwise fun f g => f.value.length < g.value.length ∨
      f.value.length = g.value.length ∧ f.facet.rank ≤ g.facet.rank) ∧
    (∀ f ∈ suggested, Origin m f ∧ f.value ≠ "" ∧ f.reversed = false ∧ f.isText = false) ∧
    ∀ f, Origin m f →
      (f.probe = .tag ∨ f.probe = .link false none → f.value ≠ "") ∧
      (f.value ≠ "" → ∃ g ∈ suggested, g.key = f.key) := by
  intro m suggested
  refine ⟨?_, ?_, fun f hf => ?_, fun f horigin => ⟨horigin.value_ne, fun hne => ?_⟩⟩
  · have hkeys := (keys_distinct [] (valued (sources m.catalogue))).1
    exact ((List.mergeSort_perm _ _).map Filter.key).nodup_iff.2 hkeys
  · exact pairwise_byLength ((pairwise_sources m.catalogue).sublist (dedup_sublist _))
  · obtain ⟨horigin, hne⟩ := origin_of_mem_collect hf
    exact ⟨horigin, hne, horigin.reversed_eq_false, horigin.isText_eq_false⟩
  · have hvalued := mem_valued_iff.2 ⟨horigin.mem_sources, hne⟩
    obtain ⟨g, hg, hkey⟩ := exists_mem_distinct hvalued List.not_mem_nil
    exact ⟨g, mem_collect_iff.2 hg, hkey⟩

/-- The label of a link to another note is suggested. -/
theorem suggests_all_in_order_with_label :
    let m := Memory.ofEdits
      [.write "p/a.md" "see #t [[b|B]] [[gone]]" {} {}, .write "b.md" "" {} {}]
    ∃ g ∈ collect m.catalogue, g.key = "link:alias:B:b.md" := by
  intro m
  obtain ⟨source, hsource, hbody⟩ : ∃ source ∈ m.documents, links source.body =
      [⟨"b", some "B"⟩, ⟨"gone", none⟩] := by decide +kernel
  obtain ⟨d, hd, hpath⟩ : ∃ d ∈ m.documents, d.note.path = "b.md" := by decide +kernel
  have horigin : Origin m ⟨.link true (some "B"), d.note.path, false⟩ :=
    .labelled hsource hd (hbody ▸ List.mem_cons_self) rfl (by rw [hpath]; decide +kernel)
  rw [hpath] at horigin
  exact ((suggests_all_in_order _).2.2.2 _ horigin).2 (by decide)

end Suggestion
end NoteSearch

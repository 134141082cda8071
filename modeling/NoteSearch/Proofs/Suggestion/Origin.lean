import NoteSearch.Proofs.Suggestion.Distinct

/-!
# Where suggestions come from

Every value that a vault in memory suggests is a tag or the target of a link in some body, or the
path of a document or of a folder around it. None is suggested reversed.
-/
namespace NoteSearch.Suggestion
open Vault Markdown

/-- What a vault gives rise to a filter by. -/
inductive Origin (m : Memory) : Filter → Prop
  | tag {d : Document} {tag : String} (hd : d ∈ m.documents) (htag : tag ∈ tags d.body) :
    Origin m ⟨.tag, tag, false⟩
  | folder {d : Document} {folder : String} (hd : d ∈ m.documents)
    (hfolder : folder ∈ d.note.ancestors) : Origin m ⟨.folder, folder, false⟩
  | note {d : Document} (hd : d ∈ m.documents) : Origin m ⟨.link true none, d.note.path, false⟩
  | labelled {source d : Document} {raw : RawLink} {label : String} (hsource : source ∈ m.documents)
    (hd : d ∈ m.documents) (hraw : raw ∈ links source.body) (hlabel : raw.label = some label)
    (hleads : m.catalogue.resolve raw.target = some d.note.path) :
    Origin m ⟨.link true (some label), d.note.path, false⟩
  | missing {source : Document} {raw : RawLink} (hsource : source ∈ m.documents)
    (hraw : raw ∈ links source.body) (hnowhere : m.catalogue.resolve raw.target = none) :
    Origin m ⟨.link false none, raw.target, false⟩
  | backlink {d : Document} (hd : d ∈ m.documents) : Origin m ⟨.backlink, d.note.path, false⟩

variable {m : Memory} {f : Filter}

theorem origin_tag {tag : String} {count : Nat}
    (h : (tag, count) ∈ m.catalogue.tags) : Origin m ⟨.tag, tag, false⟩ := by
  obtain ⟨used, hused, heq⟩ := List.mem_map.1 h
  obtain rfl : used = tag := (Prod.mk.inj heq).1
  obtain ⟨e, he, htag⟩ := List.mem_flatMap.1 (Order.mem_of_mem_ofList hused)
  obtain ⟨d, hd, rfl⟩ := Memory.exists_of_mem_entries he
  rw [Memory.tags_entry hd] at htag
  exact .tag hd htag

theorem origin_folder {folder : String} (h : folder ∈ m.catalogue.folders) :
    Origin m ⟨.folder, folder, false⟩ := by
  obtain ⟨d, hd, hancestor⟩ := Memory.mem_folders_iff.1 h
  exact .folder hd hancestor

/-- The links of a vault in memory are those of its bodies. -/
theorem mem_links_iff {link : Link} :
    link ∈ m.catalogue.links ↔
      ∃ source ∈ m.documents, ∃ raw ∈ links source.body,
        Link.ofRaw m.catalogue.paths raw = link := by
  rw [Catalogue.links, List.mem_flatMap]
  constructor
  · rintro ⟨e, he, hlink⟩
    obtain ⟨source, hsource, rfl⟩ := Memory.exists_of_mem_entries he
    rw [Memory.links_entry hsource] at hlink
    exact ⟨source, hsource, List.mem_map.1 hlink⟩
  · rintro ⟨source, hsource, hlink⟩
    refine ⟨m.entry source, Memory.entry_mem hsource, ?_⟩
    rw [Memory.links_entry hsource]
    exact List.mem_map.2 hlink

/-- Targets are offered that are there, under each label that a link gives them, and such as lead
nowhere. -/
theorem mem_linkTargets_iff {c : Catalogue} {target : LinkTarget} :
    target ∈ c.linkTargets ↔
      (∃ path ∈ c.paths, ⟨path, true, none⟩ = target) ∨
      (∃ link ∈ c.links, ∃ label, link.found = true ∧ link.label = some label ∧
        ⟨link.target, true, some label⟩ = target) ∨
      ∃ link ∈ c.links, link.found = false ∧ ⟨link.target, false, none⟩ = target := by
  simp only [Catalogue.linkTargets, List.mem_append, List.mem_map, Order.mem_ofList_iff,
    List.mem_filterMap]
  rw [or_assoc]
  refine or_congr_right (or_congr ?_ ?_)
  · constructor
    · rintro ⟨⟨path, label⟩, ⟨link, hlink, hkept⟩, rfl⟩
      cases hfound : link.found with
      | false => simp [hfound] at hkept
      | true =>
        obtain ⟨hlabel, rfl⟩ : link.label = some label ∧ link.target = path := by
          simpa [hfound] using hkept
        exact ⟨link, hlink, label, hfound, hlabel, rfl⟩
    · rintro ⟨link, hlink, label, hfound, hlabel, rfl⟩
      exact ⟨(link.target, label), ⟨link, hlink, by simp [hfound, hlabel]⟩, rfl⟩
  · constructor
    · rintro ⟨path, ⟨link, hlink, hkept⟩, rfl⟩
      cases hfound : link.found with
      | true => simp [hfound] at hkept
      | false =>
        obtain rfl : link.target = path := by simpa [hfound] using hkept
        exact ⟨link, hlink, hfound, rfl⟩
    · rintro ⟨link, hlink, hfound, rfl⟩
      exact ⟨link.target, ⟨link, hlink, by simp [hfound]⟩, rfl⟩

theorem origin_target {target : LinkTarget}
    (h : target ∈ m.catalogue.linkTargets) : Origin m (ofTarget target) := by
  obtain ⟨path, hpath, rfl⟩ | ⟨link, hlink, label, hfound, hlabel, rfl⟩ |
    ⟨link, hlink, hfound, rfl⟩ := mem_linkTargets_iff.1 h
  · obtain ⟨d, hd, rfl⟩ := Memory.mem_paths_iff.1 hpath
    exact .note hd
  · obtain ⟨source, hsource, raw, hraw, hread⟩ := mem_links_iff.1 hlink
    obtain ⟨hwritten, hleads⟩ := Link.ofRaw_eq_iff.1 hread
    obtain ⟨-, hresolve⟩ := hleads.resolve_right fun hnowhere => by simp [hfound] at hnowhere
    obtain ⟨d, hd, hpath⟩ := Memory.exists_of_resolve hresolve
    rw [hpath] at hresolve ⊢
    exact .labelled hsource hd hraw (hwritten.symm.trans hlabel) hresolve
  · obtain ⟨source, hsource, raw, hraw, hread⟩ := mem_links_iff.1 hlink
    obtain ⟨-, hleads⟩ := Link.ofRaw_eq_iff.1 hread
    obtain ⟨-, hresolve, htarget⟩ := hleads.resolve_left fun hthere => by simp [hfound] at hthere
    rw [htarget]
    exact .missing hsource hraw hresolve

theorem origin_of_mem_sources (h : f ∈ sources m.catalogue) : Origin m f := by
  rw [sources, List.mem_append, List.mem_append, List.mem_append] at h
  obtain ((htag | hfolder) | htarget) | hbacklink := h
  · obtain ⟨⟨tag, count⟩, hmem, rfl⟩ := List.mem_map.1 htag
    exact origin_tag hmem
  · obtain ⟨folder, hmem, rfl⟩ := List.mem_map.1 hfolder
    exact origin_folder hmem
  · obtain ⟨target, hmem, rfl⟩ := List.mem_map.1 htarget
    exact origin_target hmem
  · obtain ⟨path, hpath, rfl⟩ := List.mem_map.1 hbacklink
    obtain ⟨d, hd, rfl⟩ := Memory.mem_paths_iff.1 hpath
    exact .backlink hd

theorem origin_of_mem_collect (h : f ∈ collect m.catalogue) :
    Origin m f ∧ f.value ≠ "" :=
  (mem_of_mem_dedup (mem_collect_iff.1 h)).imp_left origin_of_mem_sources

end NoteSearch.Suggestion

import NoteSearch.Display.Lines
import NoteSearch.Proofs.Filter.Canonical
import NoteSearch.Proofs.Suggestion.Origin
import NoteSearch.Proofs.Vault.Resolved
import NoteSearch.Workspace.Store

/-!
# Suggestions can be typed as they are printed

What a vault in memory suggests is read as it was written, if the paths of its documents can be
written at all. Only whether the target of a link is there has to be looked up again.
-/
namespace NoteSearch
open Vault Markdown Text

namespace Vault

/-- The path can be written as the value of a filter and of a link, and so can its folders. -/
structure Path.IsPlain (path : String) : Prop where
  ne_empty : path ≠ ""
  no_bar : '|' ∉ path.toList
  no_slash : path.toList.head? ≠ some '/'
  trimmed : IsTrimmed path
  folders_trimmed : ∀ folder ∈ Path.ancestors path.toList, trim folder = folder

instance (path : String) : Decidable (Path.IsPlain path) :=
  decidable_of_iff
    (path ≠ "" ∧ '|' ∉ path.toList ∧ path.toList.head? ≠ some '/' ∧ IsTrimmed path ∧
      ∀ folder ∈ Path.ancestors path.toList, trim folder = folder)
    ⟨fun ⟨hne, hbar, hslash, htrimmed, hfolders⟩ => ⟨hne, hbar, hslash, htrimmed, hfolders⟩,
      fun h => ⟨h.ne_empty, h.no_bar, h.no_slash, h.trimmed, h.folders_trimmed⟩⟩

/-- A target that leads nowhere is not the path of a note. -/
theorem notMem_of_resolve_eq_none {paths : List String} {target : String}
    (hslash : ∀ path ∈ paths, path.toList.head? ≠ some '/') (htrimmed : IsTrimmed target)
    (h : resolve paths target = none) : target ∉ paths := by
  intro hmem
  have hplain : plainTarget target = target.toList := by
    have hhead := hslash target hmem
    rw [plainTarget, htrimmed.trim_eq, Path.trimSlashesStart]
    cases htarget : target.toList with
    | nil => rfl
    | cons c cs => exact List.dropWhile_cons_of_neg (by simpa [htarget] using hhead)
  rw [resolve_of_mem hplain hmem] at h
  cases h

end Vault

namespace Suggestion

variable {m : Memory} {f : Filter}

/-- The filter can be typed as it is written, and says rightly whether a note has the path that is
its value. -/
structure IsPrintable (c : Catalogue) (f : Filter) : Prop where
  canonical : f.IsCanonical
  present : ∀ present label, f.probe = .link present label → c.contains f.value = present

theorem isPrintable_tag {c : Catalogue} {body tag : String} (h : tag ∈ tags body) :
    IsPrintable c ⟨.tag, tag, false⟩ := by
  obtain ⟨word, htext, -, hchars⟩ := exists_word_of_mem_tags h
  refine ⟨⟨by simp [htext, Filter.tagMark], fun c hc => ?_⟩, nofun⟩
  rw [htext] at hc
  obtain rfl | hword := List.mem_cons.1 hc
  · exact Filter.isBlank_tagMark
  · exact not_blank_of_isTagChar (hchars c hword)

theorem isPrintable_folder {c : Catalogue} {note : Note} (hplain : Path.IsPlain note.path)
    {folder : String} (h : folder ∈ note.ancestors) (hne : folder ≠ "") :
    IsPrintable c ⟨.folder, folder, false⟩ := by
  obtain ⟨text, htext, rfl⟩ := List.mem_map.1 h
  have htrim := hplain.folders_trimmed text htext
  exact ⟨⟨hne, by rw [IsTrimmed, String.toList_ofList, htrim]⟩, nofun⟩

theorem isPrintable_note {c : Catalogue} {path : String} (hplain : Path.IsPlain path)
    (hpath : c.contains path = true) {label : Option String}
    (hlabel : ∀ l, label = some l → l ≠ "" ∧ IsTrimmed l) :
    IsPrintable c ⟨.link true label, path, false⟩ := by
  refine ⟨?_, fun present label heq => ?_⟩
  · cases label with
    | none => exact ⟨hplain.ne_empty, hplain.trimmed, hplain.no_bar⟩
    | some label => exact ⟨hplain.trimmed, hplain.no_bar, hlabel label rfl⟩
  · cases heq
    exact hpath

theorem isPrintable_missing (hpaths : ∀ d ∈ m.documents, Path.IsPlain d.note.path) {raw : RawLink}
    (hraw : raw.IsPlain) (h : m.catalogue.resolve raw.target = none) :
    IsPrintable m.catalogue ⟨.link false none, raw.target, false⟩ := by
  have hslash : ∀ path ∈ m.catalogue.paths, path.toList.head? ≠ some '/' := by
    intro path hpath
    obtain ⟨d, hd, rfl⟩ := Memory.mem_paths_iff.1 hpath
    exact (hpaths d hd).no_slash
  have hbar : '|' ∉ raw.target.toList := fun hmem =>
    absurd (hraw.target_chars '|' hmem) (by decide)
  have hmissing := notMem_of_resolve_eq_none hslash hraw.target_trimmed h
  rw [← Catalogue.contains_iff, Bool.not_eq_true] at hmissing
  refine ⟨⟨hraw.target_ne, hraw.target_trimmed, hbar⟩, fun present label heq => ?_⟩
  cases heq
  exact hmissing

/-- Every suggestion can be typed. -/
theorem isPrintable_of_mem_collect
    (hpaths : ∀ d ∈ m.documents, Path.IsPlain d.note.path) (h : f ∈ collect m.catalogue) :
    IsPrintable m.catalogue f := by
  obtain ⟨horigin, hne⟩ := origin_of_mem_collect h
  have hpresent {d : Document} (hd : d ∈ m.documents) :
      m.catalogue.contains d.note.path = true :=
    Catalogue.contains_iff.2 (Memory.mem_paths_iff.2 ⟨d, hd, rfl⟩)
  cases horigin with
  | tag hd htag => exact isPrintable_tag htag
  | folder hd hfolder => exact isPrintable_folder (hpaths _ hd) hfolder hne
  | note hd => exact isPrintable_note (hpaths _ hd) (hpresent hd) nofun
  | labelled hsource hd hraw hlabel hleads =>
    have hplain := isPlain_of_mem_links hraw
    refine isPrintable_note (hpaths _ hd) (hpresent hd) fun label heq => ?_
    cases heq
    exact ⟨hplain.label_ne _ hlabel, hplain.label_trimmed _ hlabel⟩
  | missing hsource hraw hnowhere =>
    exact isPrintable_missing hpaths (isPlain_of_mem_links hraw) hnowhere
  | backlink hd =>
    have hplain := hpaths _ hd
    exact ⟨⟨hplain.ne_empty, hplain.trimmed⟩, nofun⟩

/-- What is printed is read as the filter that it was, once it has been looked up whether the target
of a link is there. -/
theorem IsPrintable.read_written {store : Store} (h : IsPrintable store.catalogue f) :
    ∃ g, Filter.read f.written = .ok g ∧ store.resolveLink g = f := by
  refine ⟨f.assumed, Filter.read_written_of_isCanonical h.canonical, ?_⟩
  obtain ⟨probe, value, reversed⟩ := f
  cases probe with
  | link present label =>
    have hpresent := h.present present label rfl
    simp only [Filter.assumed, Store.resolveLink]
    rw [hpresent]
  | tag | folder | backlink | text => rfl

/-- Every suggestion of a vault in memory whose paths can be written is read when it is typed as it
is printed alone on its line, and is the same again, with its label and with the knowledge whether
its target is there, once the target has been looked up. -/
theorem read_suggestionLine (edits : List Memory.Edit) (styled : Bool) (f : Filter)
    (hpaths : ∀ d ∈ (Memory.ofEdits edits).documents, Path.IsPlain d.note.path)
    (h : f ∈ (Store.memory (Memory.ofEdits edits)).suggestions) :
    ∃ g, Filter.read (Display.suggestionLine styled true f) = .ok g ∧
      (Store.memory (Memory.ofEdits edits)).resolveLink g = f := by
  have hprintable : IsPrintable (Memory.ofEdits edits).catalogue f :=
    isPrintable_of_mem_collect hpaths h
  exact @IsPrintable.read_written f (Store.memory (Memory.ofEdits edits)) hprintable

/-- A label with a bar in it is printed and read behind a path in a folder. -/
theorem read_suggestionLine_labelled :
    let edits : List Memory.Edit := [.write "plans/a.md" "#todo [[b|one|two]] [[/c]]" {} {},
      .write "b.md" "[[a]]" {} {}]
    let f : Filter := ⟨.link true (some "one|two"), "b.md", false⟩
    (∀ d ∈ (Memory.ofEdits edits).documents, Path.IsPlain d.note.path) ∧
      f ∈ (Store.memory (Memory.ofEdits edits)).suggestions ∧
      Display.suggestionLine false true f = "link:b.md|one|two" ∧
      ∃ g, Filter.read "link:b.md|one|two" = .ok g ∧
        (Store.memory (Memory.ofEdits edits)).resolveLink g = f := by
  intro edits f
  have hpaths : ∀ d ∈ (Memory.ofEdits edits).documents, Path.IsPlain d.note.path := by
    decide +kernel
  have hmem : f ∈ (Store.memory (Memory.ofEdits edits)).suggestions := by
    rw [Store.suggestions, mem_collect_iff]
    decide +kernel
  exact ⟨hpaths, hmem, rfl, read_suggestionLine edits false f hpaths hmem⟩

end Suggestion
end NoteSearch

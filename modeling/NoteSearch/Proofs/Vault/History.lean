import Mathlib.Data.List.Induction
import Mathlib.Data.List.Nodup
import NoteSearch.Proofs.Vault.Answers

/-!
# The last edit of a path counts

What a vault in memory holds under a path is what was last written there, unless it was removed
after that. Nothing else that happened to the vault can be seen: two histories after which every
path holds the same leave vaults that look the same from outside, and none others do.
-/
namespace NoteSearch.Vault
open Time

namespace Memory

/-- What is written to a path. -/
structure Content where
  body : String
  created : Instant
  modified : Instant
  deriving Repr, DecidableEq

namespace Content

/-- What is known about the document of a path with this content. -/
def note (content : Content) (path : String) : Note :=
  .ofBody path content.body content.created content.modified

def document (content : Content) (path : String) : Document := ⟨content.note path, content.body⟩

end Content

namespace Edit

/-- The path that is written to or removed. -/
def path : Edit → String
  | write path .. => path
  | remove path => path

/-- What the path holds after the edit. -/
def content? : Edit → Option Content
  | write _ body created modified => some ⟨body, created, modified⟩
  | remove _ => none

end Edit

/-- What a path holds after some edits: the last one of the path decides. -/
def contents (edits : List Edit) (path : String) : Option Content :=
  (edits.reverse.find? (·.path == path)).bind Edit.content?

variable {m : Memory} {edits edits' : List Edit} {path : String} {d : Document}

theorem contents_concat (edits : List Edit) (edit : Edit) (path : String) :
    contents (edits ++ [edit]) path =
      if edit.path = path then edit.content? else contents edits path := by
  rw [contents, List.reverse_concat]
  by_cases hpath : edit.path = path <;> simp [hpath, contents]

/-! ## One edit and all edits -/

/-- An edit decides what its path holds, and no other. -/
theorem document?_edited (m : Memory) (edit : Edit) (path : String) :
    (m.edited edit).document? path =
      if edit.path = path then edit.content?.map (·.document path) else m.document? path := by
  have hothers (written : String) :
      (m.documents.filter (·.note.path != written)).find? (·.note.path == path) =
        if written = path then none else m.document? path := by
    rw [List.find?_filter]
    by_cases hpath : written = path
    · rw [if_pos hpath, List.find?_eq_none]
      intro d _
      simp [hpath]
    · rw [if_neg hpath]
      refine congrArg (fun p => m.documents.find? p) (funext fun d => ?_)
      by_cases hd : d.note.path = path
      · simp [hd, Ne.symm hpath]
      · simp [hd]
  cases edit with
  | remove removed =>
    rw [document?, edited, documents_remove, hothers]
    rfl
  | write written body created modified =>
    rw [document?, edited, documents_write, List.find?_append, hothers]
    by_cases hpath : written = path
    · subst hpath
      simp [Edit.path, Edit.content?, Content.document, Content.note, Note.ofBody]
    · simp [Edit.path, hpath, Note.ofBody]

theorem ofEdits_concat (edits : List Edit) (edit : Edit) :
    ofEdits (edits ++ [edit]) = (ofEdits edits).edited edit :=
  List.foldl_append

theorem document?_ofEdits (edits : List Edit) (path : String) :
    (ofEdits edits).document? path = (contents edits path).map (·.document path) := by
  -- The edit that decides comes last, so the induction takes edits off at the end.
  induction edits using List.reverseRecOn with
  | nil => rfl
  | append_singleton edits edit ih =>
    rw [ofEdits_concat, document?_edited, contents_concat, ih]
    split <;> rfl

theorem mem_documents_ofEdits_iff :
    d ∈ (ofEdits edits).documents ↔
      ∃ content, contents edits d.note.path = some content ∧ d = content.document d.note.path := by
  have hmem : (ofEdits edits).document? d.note.path = some d ↔ _ := document?_eq_some_iff
  rw [document?_ofEdits, Option.map_eq_some_iff, and_iff_left rfl] at hmem
  rw [← hmem]
  exact exists_congr fun content => and_congr_right fun _ => eq_comm

/-! ## What the vault keeps and shows -/

theorem paths_perm (m : Memory) : m.catalogue.paths.Perm (m.notes.map (·.path)) := by
  have hperm := m.entries_perm.map (·.note.path)
  rw [List.map_map] at hperm
  rw [notes_eq, List.map_map]
  exact hperm

theorem keys_perm (m : Memory) : (Keyed.keys m.bodies).Perm (m.notes.map (·.path)) := by
  refine (List.perm_ext_iff_of_nodup m.inStep.keys (List.pairwise_map.2 m.inStep.distinct)).2
    fun path => ?_
  rw [Keyed.mem_keys_iff, List.mem_map]
  constructor
  · intro hbody
    obtain ⟨body, hbody⟩ := Option.isSome_iff_exists.1 hbody
    exact m.inStep.noted path body hbody
  · rintro ⟨note, hnote, rfl⟩
    obtain ⟨body, hbody, -⟩ := m.inStep.extracted note hnote
    rw [hbody, Option.isSome_some]

/-- The catalogue knows the note of each document. -/
theorem note?_catalogue (m : Memory) (path : String) :
    m.catalogue.note? path = (m.document? path).map (·.note) := by
  cases hfound : m.document? path with
  | some d =>
    obtain ⟨hd, rfl⟩ := document?_eq_some_iff.1 hfound
    rw [Catalogue.note?, entry?_of_mem hd]
    rfl
  | none =>
    rw [Catalogue.note?, Option.map_none, Option.map_eq_none_iff, Catalogue.entry?,
      List.find?_eq_none]
    intro e he hpath
    obtain ⟨d, hd, rfl⟩ := exists_of_mem_entries he
    exact List.find?_eq_none.1 hfound d hd hpath

/-- Copies of documents of which each path holds what `contents` says. The notes have different
paths; they are those of the paths that hold something, each that of the content. The bodies and
the entries of the catalogue are under the same paths as the notes, each once; the catalogue knows
the same notes, and the bodies are the ones that can be read. -/
structure Copies.Holds (c : Copies) (contents : String → Option Content) : Prop where
  distinct : (c.notes.map (·.path)).Nodup
  note : ∀ note, note ∈ c.notes ↔
    ∃ content, contents note.path = some content ∧ note = content.note note.path
  bodies : (Keyed.keys c.bodies).Perm (c.notes.map (·.path))
  catalogue : c.catalogue.paths.Perm (c.notes.map (·.path))
  catalogued : ∀ path, c.catalogue.note? path = (contents path).map (·.note path)
  contains : ∀ path, c.contains path = (contents path).isSome
  read : ∀ path, c.read path =
    ((contents path).map (·.body)).elim (.error (.notFound path)) .ok

/-- Every history leaves copies that hold what was last written. -/
theorem holds_ofEdits (edits : List Edit) : (Copies.ofEdits edits).Holds (contents edits) := by
  rw [← toCopies_ofEdits]
  refine ⟨List.pairwise_map.2 (ofEdits edits).inStep.distinct, fun note => ?_, keys_perm _,
    paths_perm _, fun path => ?_, fun path => ?_, fun path => ?_⟩
  · rw [notes_eq, List.mem_map]
    constructor
    · rintro ⟨d, hd, rfl⟩
      obtain ⟨content, hcontent, hdocument⟩ := mem_documents_ofEdits_iff.1 hd
      exact ⟨content, hcontent, congrArg Document.note hdocument⟩
    · rintro ⟨content, hcontent, hnote⟩
      have hd : content.document note.path ∈ (ofEdits edits).documents :=
        mem_documents_ofEdits_iff.2 ⟨content, hcontent, rfl⟩
      exact ⟨_, hd, hnote.symm⟩
  · rw [note?_catalogue, document?_ofEdits, Option.map_map]
    rfl
  · rw [contains_eq, document?_ofEdits, Option.isSome_map]
  · rw [read_eq, document?_ofEdits, Option.map_map]
    rfl

theorem toCopies_holds (edits : List Edit) : (ofEdits edits).toCopies.Holds (contents edits) :=
  toCopies_ofEdits edits ▸ holds_ofEdits edits

/-! ## What can be told apart -/

/-- Whatever is asked of the two vaults, they answer the same. -/
structure LooksLike (m m' : Memory) : Prop where
  paths : m.catalogue.paths = m'.catalogue.paths
  tags : m.catalogue.tags = m'.catalogue.tags
  folders : m.catalogue.folders = m'.catalogue.folders
  linkTargets : m.catalogue.linkTargets = m'.catalogue.linkTargets
  resolve : ∀ target, m.catalogue.resolve target = m'.catalogue.resolve target
  linksOf : ∀ path, m.catalogue.linksOf path = m'.catalogue.linksOf path
  backlinkCount : ∀ path, m.catalogue.backlinkCount path = m'.catalogue.backlinkCount path
  answer : ∀ query, m.catalogue.answer query = m'.catalogue.answer query
  read : ∀ path, m.read path = m'.read path

/-- The catalogue does not tell in which order documents were written. -/
theorem catalogue_eq_of_perm {m' : Memory} (hperm : m.notes.Perm m'.notes) :
    m.catalogue = m'.catalogue := by
  rw [m.inStep.catalogued, m'.inStep.catalogued]
  exact Catalogue.ofNotes_eq_of_perm (List.pairwise_map.2 m.inStep.distinct) hperm

theorem Copies.Holds.perm {c c' : Copies} {held : String → Option Content} (h : c.Holds held)
    (h' : c'.Holds held) : c.notes.Perm c'.notes :=
  (List.perm_ext_iff_of_nodup (.of_map _ h.distinct) (.of_map _ h'.distinct)).2 fun note =>
    (h.note note).trans (h'.note note).symm

theorem looksLike_of_contents_eq (h : ∀ path, contents edits path = contents edits' path) :
    LooksLike (ofEdits edits) (ofEdits edits') := by
  have hholds := toCopies_holds edits
  have hholds' := toCopies_holds edits'
  rw [← funext h] at hholds'
  have hsame : (ofEdits edits).catalogue = (ofEdits edits').catalogue :=
    catalogue_eq_of_perm (hholds.perm hholds')
  have hread (path : String) : (ofEdits edits).read path = (ofEdits edits').read path :=
    (hholds.read path).trans (hholds'.read path).symm
  constructor
  case read => exact hread
  all_goals simp only [hsame, implies_true]

theorem answer_compile_nil (m : Memory) :
    m.catalogue.answer (Query.compile []) = .ok (m.catalogue.select []) :=
  m.catalogue.answer_compile (by simp)

/-- Without terms every document is selected. -/
theorem mem_select_nil_iff {hit : Search.Hit} :
    hit ∈ m.catalogue.select [] ↔ ∃ note ∈ m.notes, m.catalogue.hit note = hit := by
  have hentries : (m.catalogue.select []).Perm (m.notes.map m.catalogue.hit) := by
    rw [notes_eq, List.map_map]
    simp only [Catalogue.select, List.all_nil, List.filter_true]
    exact (m.entries_perm.map _).trans (.of_eq (List.map_map ..))
  rw [hentries.mem_iff, List.mem_map]

/-- What a document shows in an answer tells when it was created and modified. -/
theorem times_eq_of_answer_eq {content content' : Content}
    (h : (ofEdits edits).catalogue.answer (Query.compile []) =
      (ofEdits edits').catalogue.answer (Query.compile []))
    (hheld : contents edits path = some content) (hheld' : contents edits' path = some content') :
    content.created = content'.created ∧ content.modified = content'.modified := by
  rw [answer_compile_nil, answer_compile_nil, Except.ok.injEq] at h
  have hmem : (ofEdits edits).catalogue.hit (content.note path) ∈
      (ofEdits edits').catalogue.select [] := by
    rw [← h, mem_select_nil_iff]
    exact ⟨content.note path, ((toCopies_holds edits).note _).2 ⟨content, hheld, rfl⟩, rfl⟩
  obtain ⟨note, hnote, hhit⟩ := mem_select_nil_iff.1 hmem
  obtain ⟨shown, hshown, heq⟩ := ((toCopies_holds edits').note note).1 hnote
  have hpath : note.path = path := congrArg Search.Hit.path hhit
  rw [hpath, hheld', Option.some.injEq] at hshown
  subst hshown
  rw [hpath] at heq
  subst heq
  exact ⟨(congrArg Search.Hit.created hhit).symm, (congrArg Search.Hit.modified hhit).symm⟩

/-- Two histories cannot be told apart if and only if every path holds the same after them. -/
theorem looksLike_iff_contents_eq :
    LooksLike (ofEdits edits) (ofEdits edits') ↔
      ∀ path, contents edits path = contents edits' path := by
  -- Bodies are told apart by reading them, and times by what an answer shows of a document.
  refine ⟨fun h path => ?_, looksLike_of_contents_eq⟩
  have hread := h.read path
  rw [(toCopies_holds edits).read, (toCopies_holds edits').read] at hread
  cases hheld : contents edits path with
  | none =>
    cases hheld' : contents edits' path with
    | none => rfl
    | some content' => simp [hheld, hheld'] at hread
  | some content =>
    cases hheld' : contents edits' path with
    | none => simp [hheld, hheld'] at hread
    | some content' =>
      obtain ⟨hcreated, hmodified⟩ := times_eq_of_answer_eq (h.answer _) hheld hheld'
      have hbody : content.body = content'.body := by simpa [hheld, hheld'] using hread
      obtain ⟨body, created, modified⟩ := content
      obtain ⟨body', created', modified'⟩ := content'
      obtain rfl : body = body' := hbody
      obtain rfl : created = created' := hcreated
      obtain rfl : modified = modified' := hmodified
      rfl

end Memory
end NoteSearch.Vault

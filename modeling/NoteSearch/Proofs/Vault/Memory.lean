import NoteSearch.Proofs.Order.Sorted
import NoteSearch.Vault.Memory

/-!
# What a vault in memory holds after any edits

However a vault is written to, its copies stay in step. So it can be taken for one list of
documents, notes with their bodies, that have different paths; what it knows about each of them is
what is found in its body; and its catalogue has an entry for each document and no others, in the
order of the paths.
-/
namespace NoteSearch.Vault
open Time

/-- A note together with its body. -/
structure Document where
  note : Note
  body : String
  deriving Repr, DecidableEq

/-- A change of a vault in memory. -/
inductive Memory.Edit where
  | write (path body : String) (created modified : Instant)
  | remove (path : String)
  deriving Repr, DecidableEq

/-- Where no two elements have one key, an element is found by its key. -/
theorem find?_of_mem {α : Type} (key : α → String) {l : List α}
    (h : l.Pairwise fun a b => key a ≠ key b) {a : α} (ha : a ∈ l) :
    l.find? (fun b => key b == key a) = some a := by
  induction l with
  | nil => simp at ha
  | cons b l ih =>
    obtain ⟨hb, hl⟩ := List.pairwise_cons.1 h
    obtain rfl | ha := List.mem_cons.1 ha
    · simp
    · rw [List.find?_cons_of_neg (by simpa using hb a ha)]
      exact ih hl ha

namespace Memory

/-- The copies after a change. -/
def Copies.edited (c : Copies) : Edit → Copies
  | .write path body created modified => (c.write path body created modified).2
  | .remove path => (c.remove path).2

/-- The copies after some changes of empty ones, the first of them first. -/
def Copies.ofEdits (edits : List Edit) : Copies := edits.foldl Copies.edited {}

/-- The vault after a change. -/
def edited (m : Memory) : Edit → Memory
  | .write path body created modified => (m.write path body created modified).2
  | .remove path => (m.remove path).2

/-- The vault after some changes of the empty one, the first of them first. -/
def ofEdits (edits : List Edit) : Memory := edits.foldl edited {}

theorem toCopies_edited (m : Memory) (edit : Edit) :
    (m.edited edit).toCopies = m.toCopies.edited edit := by
  cases edit <;> rfl

/-- A vault is changed by changing its copies, so whatever is done to them they stay in step. -/
theorem toCopies_ofEdits (edits : List Edit) : (ofEdits edits).toCopies = Copies.ofEdits edits := by
  have hfold : ∀ (edits : List Edit) (m : Memory),
      (edits.foldl edited m).toCopies = edits.foldl Copies.edited m.toCopies := by
    intro edits
    induction edits with
    | nil => exact fun m => rfl
    | cons edit edits ih =>
      intro m
      rw [List.foldl_cons, ih, toCopies_edited, List.foldl_cons]
  exact hfold edits {}

/-! ## The vault as one list -/

variable {m : Memory} {d : Document} {path : String}

/-- The documents: each note with the body under its path. -/
def documents (m : Memory) : List Document :=
  m.notes.map fun note => ⟨note, (m.bodies.lookup note.path).getD ""⟩

/-- The document of a path. -/
def document? (m : Memory) (path : String) : Option Document :=
  m.documents.find? (·.note.path == path)

theorem notes_eq (m : Memory) : m.notes = m.documents.map (·.note) := by
  rw [documents, List.map_map]
  exact (List.map_id' _).symm

theorem catalogue_eq (m : Memory) : m.catalogue = .ofNotes (m.documents.map (·.note)) := by
  rw [← notes_eq, m.inStep.catalogued]

/-- No two documents have one path. -/
theorem distinct (m : Memory) : m.documents.Pairwise fun d d' => d.note.path ≠ d'.note.path :=
  List.pairwise_map.2 m.inStep.distinct

/-- A document has the body that is kept under its path, -/
theorem lookup_of_mem (hd : d ∈ m.documents) : m.bodies.lookup d.note.path = some d.body := by
  obtain ⟨note, hnote, rfl⟩ := List.mem_map.1 hd
  obtain ⟨body, hbody, -⟩ := m.inStep.extracted note hnote
  simp [hbody]

/-- and its note is that of its body. -/
theorem extracted (hd : d ∈ m.documents) :
    d.note = Note.ofBody d.note.path d.body d.note.created d.note.modified := by
  obtain ⟨note, hnote, rfl⟩ := List.mem_map.1 hd
  obtain ⟨body, hbody, heq⟩ := m.inStep.extracted note hnote
  simpa [hbody] using heq

theorem document?_of_mem (hd : d ∈ m.documents) : m.document? d.note.path = some d :=
  find?_of_mem (fun d : Document => d.note.path) m.distinct hd

theorem document?_eq_some_iff :
    m.document? path = some d ↔ d ∈ m.documents ∧ d.note.path = path := by
  constructor
  · intro hfound
    exact ⟨List.mem_of_find?_eq_some hfound, by simpa using List.find?_some hfound⟩
  · rintro ⟨hd, rfl⟩
    exact document?_of_mem hd

/-- There are no bodies but those of the documents. -/
theorem lookup_bodies (m : Memory) (path : String) :
    m.bodies.lookup path = (m.document? path).map (·.body) := by
  cases hfound : m.document? path with
  | some d =>
    obtain ⟨hd, rfl⟩ := document?_eq_some_iff.1 hfound
    exact lookup_of_mem hd
  | none =>
    cases hbody : m.bodies.lookup path with
    | none => rfl
    | some body =>
      obtain ⟨note, hnote, rfl⟩ := m.inStep.noted path body hbody
      rw [notes_eq] at hnote
      obtain ⟨d, hd, rfl⟩ := List.mem_map.1 hnote
      rw [document?_of_mem hd] at hfound
      cases hfound

theorem contains_eq (m : Memory) (path : String) :
    m.contains path = (m.document? path).isSome := by
  rw [Copies.contains, lookup_bodies, Option.isSome_map]

theorem read_eq (m : Memory) (path : String) :
    m.read path = ((m.document? path).map (·.body)).elim (.error (.notFound path)) .ok := by
  rw [Copies.read, lookup_bodies]
  cases m.document? path <;> rfl

/-- Writing takes the document of the path out of the list and puts the new one at its end. -/
theorem documents_write (m : Memory) (path body : String) (created modified : Instant) :
    (m.write path body created modified).2.documents =
      m.documents.filter (·.note.path != path) ++
        [⟨Note.ofBody path body created modified, body⟩] := by
  change (m.others path ++ [_]).map _ = _
  rw [List.map_append, documents, List.filter_map]
  congr 1
  · refine List.map_congr_left fun note hnote => ?_
    have hne := (Copies.mem_others_iff.1 hnote).2
    simp [Memory.write, Copies.write, Keyed.lookup_put, hne]
  · simp [Memory.write, Copies.write, Keyed.lookup_put, Note.ofBody]

/-- Removing says whether there was something to remove. -/
theorem remove_fst (m : Memory) (path : String) : (m.remove path).1 = m.contains path := by
  change (m.toCopies.remove path).1 = _
  rw [Copies.remove]
  cases m.contains path <;> rfl

/-- Removing takes the document of the path out of the list. -/
theorem documents_remove (m : Memory) (path : String) :
    (m.remove path).2.documents = m.documents.filter (·.note.path != path) := by
  have hremoved : (m.remove path).2.toCopies = (m.toCopies.remove path).2 := rfl
  rw [documents, hremoved, Copies.remove]
  split
  · next hnone =>
    -- the path is that of no document, so that nothing is taken out
    rw [Bool.not_eq_true', contains_eq, Option.isSome_eq_false_iff,
      Option.isNone_iff_eq_none] at hnone
    refine (List.filter_eq_self.2 fun d hd => bne_iff_ne.2 ?_).symm
    rintro rfl
    rw [document?_of_mem hd] at hnone
    cases hnone
  · rw [documents, List.filter_map]
    refine List.map_congr_left fun note hnote => ?_
    have hne := (Copies.mem_others_iff.1 hnote).2
    simp [Keyed.lookup_erase, hne]

end Memory

/-! ## The catalogue of some notes -/

instance : Std.TransCmp Note.byPath :=
  inferInstanceAs (Std.TransCmp (compareOn Note.path))

theorem ne_of_compare_lt {a b : String} (h : compare a b = .lt) : a ≠ b := by
  intro heq
  rw [Std.LawfulEqOrd.compare_eq_iff_eq.2 heq] at h
  cases h

theorem byPath_eq_iff {a b : Note} : Note.byPath a b = .eq ↔ a.path = b.path :=
  Std.LawfulEqOrd.compare_eq_iff_eq

namespace Catalogue

theorem paths_ofNotes (notes : List Note) :
    (ofNotes notes).paths = (Order.ofList Note.byPath notes).map (·.path) := by
  simp [ofNotes, paths, Function.comp_def]

theorem entries_ofNotes (notes : List Note) :
    (ofNotes notes).entries = (Order.ofList Note.byPath notes).map fun note =>
      ⟨note, note.links.map (Link.ofRaw (ofNotes notes).paths)⟩ := by
  rw [paths_ofNotes]
  rfl

/-- The entry of a path is that of the last note of this path. -/
theorem entry?_ofNotes (notes : List Note) (path : String) :
    Catalogue.entry? (ofNotes notes) path =
      (notes.reverse.find? (·.path == path)).map fun note =>
        ⟨note, note.links.map (Link.ofRaw (ofNotes notes).paths)⟩ := by
  rw [Catalogue.entry?, entries_ofNotes, List.find?_map]
  exact congrArg _ (Order.find?_ofList Note.path notes path)

theorem note?_ofNotes (notes : List Note) (path : String) :
    (ofNotes notes).note? path = notes.reverse.find? (·.path == path) := by
  rw [note?, entry?_ofNotes, Option.map_map]
  exact Option.map_id'

/-- The entries stand in the order of their paths, no two of which are equal. -/
theorem increasing_entries_ofNotes (notes : List Note) :
    (ofNotes notes).entries.Pairwise fun e e' => compare e.note.path e'.note.path = .lt := by
  have hnotes : Order.Increasing Note.byPath (Order.ofList Note.byPath notes) :=
    Order.increasing_ofList notes
  rw [entries_ofNotes, List.pairwise_map]
  exact hnotes

theorem increasing_paths_ofNotes (notes : List Note) :
    Order.Increasing compare (ofNotes notes).paths :=
  List.pairwise_map.2 (increasing_entries_ofNotes notes)

/-- Notes with different paths make the same catalogue in any order. -/
theorem ofNotes_eq_of_perm {notes notes' : List Note} (hdistinct : (notes.map (·.path)).Nodup)
    (hperm : notes.Perm notes') : ofNotes notes = ofNotes notes' := by
  have hne : notes.Pairwise (Note.byPath · · ≠ .eq) :=
    (List.pairwise_map.1 hdistinct).imp fun hne heq => hne (byPath_eq_iff.1 heq)
  rw [ofNotes, ofNotes, Order.ofList_eq_of_perm hne hperm]

/-- The only entry of a path is the one that is found. -/
theorem entry?_of_mem {notes : List Note} {e : Entry} (h : e ∈ (ofNotes notes).entries) :
    Catalogue.entry? (ofNotes notes) e.note.path = some e := by
  refine find?_of_mem (fun e : Entry => e.note.path) ?_ h
  exact (increasing_entries_ofNotes notes).imp fun hlt => ne_of_compare_lt hlt

theorem linksOf_of_mem {notes : List Note} {e : Entry} (h : e ∈ (ofNotes notes).entries) :
    (ofNotes notes).linksOf e.note.path = e.links := by
  have hfind : Catalogue.entry? (ofNotes notes) e.note.path = some e := entry?_of_mem h
  simp [linksOf, hfind]

/-- Notes are selected in the order of their paths. -/
theorem pairwise_select (notes : List Note) (terms : List Query.Term) :
    ((ofNotes notes).select terms).Pairwise fun a b => compare a.path b.path = .lt :=
  List.pairwise_map.2 ((increasing_entries_ofNotes notes).filter _)

/-- What is selected is shown of entries. -/
theorem exists_of_mem_select {c : Catalogue} {terms : List Query.Term} {hit : Search.Hit}
    (h : hit ∈ c.select terms) : ∃ e ∈ c.entries, hit = c.hit e.note := by
  obtain ⟨e, he, rfl⟩ := List.mem_map.1 h
  exact ⟨e, (List.mem_filter.1 he).1, rfl⟩

theorem exists_of_mem_answer {c : Catalogue} {query : String} {hits : List Search.Hit}
    (h : c.answer query = .ok hits) {hit : Search.Hit} (hmem : hit ∈ hits) :
    ∃ e ∈ c.entries, hit = c.hit e.note := by
  unfold answer at h
  split at h
  · cases h
    exact exists_of_mem_select hmem
  · cases h

end Catalogue

namespace Catalogue

theorem contains_iff {c : Catalogue} {path : String} : c.contains path = true ↔ path ∈ c.paths := by
  simp [contains, entry?, paths]

theorem mem_folders_ofNotes_iff {notes : List Note} {folder : String} :
    folder ∈ (ofNotes notes).folders ↔
      ∃ e ∈ (ofNotes notes).entries, folder ∈ e.note.ancestors := by
  simp only [ofNotes, Order.mem_ofList_iff, List.mem_flatMap, List.mem_map]
  constructor
  · rintro ⟨note, hnote, hfolder⟩
    exact ⟨_, ⟨note, hnote, rfl⟩, hfolder⟩
  · rintro ⟨_, ⟨note, hnote, rfl⟩, hfolder⟩
    exact ⟨note, hnote, hfolder⟩

theorem mem_paths_ofNotes_iff {notes : List Note} {path : String} :
    path ∈ (ofNotes notes).paths ↔ ∃ note ∈ notes, note.path = path := by
  rw [← contains_iff, contains, entry?_ofNotes]
  simp

section
variable {c : Catalogue} {folders folders' : List String}

theorem mem_folders_withFolders_iff {folder : String} :
    folder ∈ (c.withFolders folders).folders ↔
      folder ∈ folders ∧ folder ≠ "" ∨ folder ∈ c.folders := by
  rw [withFolders, Order.mem_insertAll_iff, List.mem_filter]
  simp

theorem increasing_folders_withFolders (folders : List String)
    (h : Order.Increasing compare c.folders) :
    Order.Increasing compare (c.withFolders folders).folders :=
  Order.increasing_insertAll _ h

/-- Further folders may come in any order. -/
theorem withFolders_congr (h : Order.Increasing compare c.folders)
    (hsame : ∀ folder, folder ∈ folders ↔ folder ∈ folders') :
    c.withFolders folders = c.withFolders folders' := by
  have hfolders : (c.withFolders folders).folders = (c.withFolders folders').folders := by
    refine (increasing_folders_withFolders folders h).eq_of_mem_iff
      (increasing_folders_withFolders folders' h) fun folder => ?_
    rw [mem_folders_withFolders_iff, mem_folders_withFolders_iff, hsame]
  exact congrArg (fun all => { c with folders := all }) hfolders

end

end Catalogue

/-! ## Where links lead -/

theorem mem_of_shallowest {paths : List String} {path : String}
    (h : shallowest paths = some path) : path ∈ paths := by
  induction paths with
  | nil => simp [shallowest] at h
  | cons first paths ih =>
    simp only [shallowest] at h
    split at h
    · cases h
      exact List.mem_cons_self
    · next other hother =>
      split at h
      · cases h
        exact List.mem_cons_self
      · cases h
        exact List.mem_cons_of_mem first (ih hother)

/-- A target stands for one of the paths. -/
theorem mem_of_resolve {paths : List String} {target path : String}
    (h : resolve paths target = some path) : path ∈ paths := by
  simp only [resolve] at h
  split at h
  · next hexact =>
    cases h
    exact List.contains_iff_mem.1 hexact
  · split at h
    · next hending =>
      cases h
      exact List.contains_iff_mem.1 hending
    · split at h
      · cases h
      · exact (List.mem_filter.1 (mem_of_shallowest h)).1

theorem Link.target_ofRaw (c : Catalogue) (raw : Markdown.RawLink) :
    (Link.ofRaw c.paths raw).target = (c.resolve raw.target).getD raw.target := by
  unfold Link.ofRaw Catalogue.resolve
  cases resolve c.paths raw.target <;> rfl

theorem Link.leadsTo_ofRaw_iff (c : Catalogue) (raw : Markdown.RawLink) (path : String) :
    ((Link.ofRaw c.paths raw).found && (Link.ofRaw c.paths raw).target == path) = true ↔
      c.resolve raw.target = some path := by
  unfold Link.ofRaw Catalogue.resolve
  cases resolve c.paths raw.target <;> simp

/-- A link either leads to a path, or nowhere and is left as it is written. -/
theorem Link.ofRaw_eq_iff {paths : List String} {raw : Markdown.RawLink} {link : Link} :
    Link.ofRaw paths raw = link ↔ link.label = raw.label ∧
      (link.found = true ∧ resolve paths raw.target = some link.target ∨
        link.found = false ∧ resolve paths raw.target = none ∧ link.target = raw.target) := by
  obtain ⟨target, found, label⟩ := link
  unfold Link.ofRaw
  cases resolve paths raw.target <;> cases found <;> simp [eq_comm, and_comm]

/-! ## The entries of a vault in memory -/

namespace Memory

variable {m : Memory} {d d' : Document} {e : Entry} {path target : String}

/-- The entry of a document in the catalogue of its vault. -/
def entry (m : Memory) (d : Document) : Entry :=
  ⟨d.note, d.note.links.map (Link.ofRaw m.catalogue.paths)⟩

theorem entries_perm (m : Memory) : m.catalogue.entries.Perm (m.documents.map m.entry) := by
  have hne : (m.documents.map (·.note)).Pairwise (Note.byPath · · ≠ .eq) := by
    rw [List.pairwise_map]
    exact m.distinct.imp fun hne heq => hne (byPath_eq_iff.1 heq)
  have hperm := (Order.ofList_perm hne).map fun note : Note =>
    (⟨note, note.links.map (Link.ofRaw (Catalogue.ofNotes (m.documents.map (·.note))).paths)⟩ :
      Entry)
  unfold entry
  rw [catalogue_eq, Catalogue.entries_ofNotes]
  exact hperm.trans (.of_eq (by rw [List.map_map]; rfl))

theorem entry_mem (hd : d ∈ m.documents) : m.entry d ∈ m.catalogue.entries :=
  m.entries_perm.mem_iff.2 (List.mem_map_of_mem hd)

theorem exists_of_mem_entries (he : e ∈ m.catalogue.entries) :
    ∃ d ∈ m.documents, m.entry d = e :=
  List.mem_map.1 (m.entries_perm.mem_iff.1 he)

theorem read_of_mem (hd : d ∈ m.documents) : m.read d.note.path = .ok d.body := by
  rw [read_eq, document?_of_mem hd]
  rfl

/-- What stands in the catalogue comes from a document whose body can be read. -/
theorem exists_read_of_mem_entries (he : e ∈ m.catalogue.entries) :
    ∃ body, m.read e.note.path = .ok body := by
  obtain ⟨d, hd, rfl⟩ := exists_of_mem_entries he
  exact ⟨d.body, read_of_mem hd⟩

/-- A document is told by its path. -/
theorem eq_of_path_eq (hd : d ∈ m.documents) (hd' : d' ∈ m.documents)
    (hpath : d.note.path = d'.note.path) : d = d' := by
  have hfind := document?_of_mem hd
  rw [hpath, document?_of_mem hd'] at hfind
  exact (Option.some.inj hfind).symm

theorem entry?_of_mem (hd : d ∈ m.documents) :
    Catalogue.entry? m.catalogue d.note.path = some (m.entry d) := by
  have he := entry_mem hd
  rw [catalogue_eq] at he ⊢
  exact Catalogue.entry?_of_mem he

theorem linksOf_of_mem (hd : d ∈ m.documents) :
    m.catalogue.linksOf d.note.path = (m.entry d).links := by
  rw [Catalogue.linksOf, entry?_of_mem hd]
  rfl

theorem mem_paths_iff : path ∈ m.catalogue.paths ↔ ∃ d ∈ m.documents, path = d.note.path := by
  rw [catalogue_eq, Catalogue.mem_paths_ofNotes_iff]
  constructor
  · rintro ⟨_, hnote, rfl⟩
    obtain ⟨d, hd, rfl⟩ := List.mem_map.1 hnote
    exact ⟨d, hd, rfl⟩
  · rintro ⟨d, hd, rfl⟩
    exact ⟨d.note, List.mem_map_of_mem hd, rfl⟩

theorem mem_folders_iff {folder : String} :
    folder ∈ m.catalogue.folders ↔ ∃ d ∈ m.documents, folder ∈ d.note.ancestors := by
  have hentries : folder ∈ m.catalogue.folders ↔
      ∃ e ∈ m.catalogue.entries, folder ∈ e.note.ancestors := by
    rw [catalogue_eq]
    exact Catalogue.mem_folders_ofNotes_iff
  rw [hentries]
  constructor
  · rintro ⟨e, he, hfolder⟩
    obtain ⟨d, hd, rfl⟩ := exists_of_mem_entries he
    exact ⟨d, hd, hfolder⟩
  · rintro ⟨d, hd, hfolder⟩
    exact ⟨m.entry d, entry_mem hd, hfolder⟩

/-- A path that a target stands for is that of a document. -/
theorem exists_of_resolve (h : m.catalogue.resolve target = some path) :
    ∃ source ∈ m.documents, path = source.note.path :=
  mem_paths_iff.1 (mem_of_resolve h)

theorem tags_entry (hd : d ∈ m.documents) : (m.entry d).note.tags = Markdown.tags d.body := by
  rw [entry, extracted hd]
  rfl

theorem links_entry (hd : d ∈ m.documents) :
    (m.entry d).links = (Markdown.links d.body).map (Link.ofRaw m.catalogue.paths) := by
  rw [entry, extracted hd]
  rfl

/-! ## Answers -/

theorem pairwise_select (m : Memory) (terms : List Query.Term) :
    (m.catalogue.select terms).Pairwise fun a b => compare a.path b.path = .lt := by
  rw [catalogue_eq]
  exact Catalogue.pairwise_select _ terms

/-- Whatever is selected comes from a document whose body can be read. -/
theorem exists_read_of_mem_select {terms : List Query.Term} {hit : Search.Hit}
    (h : hit ∈ m.catalogue.select terms) : ∃ body, m.read hit.path = .ok body := by
  obtain ⟨e, he, rfl⟩ := Catalogue.exists_of_mem_select h
  exact exists_read_of_mem_entries he

theorem exists_read_of_answer {query : String} {candidates : List Search.Hit}
    (h : m.catalogue.answer query = .ok candidates) {hit : Search.Hit} (hhit : hit ∈ candidates) :
    ∃ body, m.read hit.path = .ok body := by
  obtain ⟨e, he, rfl⟩ := Catalogue.exists_of_mem_answer h hhit
  exact exists_read_of_mem_entries he

end Memory
end NoteSearch.Vault

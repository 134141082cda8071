import NoteSearch.Proofs.Vault.Memory

/-!
# Which notes link to a path

A catalogue notes down link by link which notes link to which paths. However often a note links to a
path, and under whatever labels, it is noted down there once. So what a catalogue counts as
backlinks is the notes that link to the path.
-/
namespace NoteSearch.Vault

/-- Whether the entry has a link to the note of this path. -/
def Entry.linksTo (e : Entry) (path : String) : Bool :=
  e.links.any fun link => link.found && link.target == path

namespace Backlinks

variable {b : Backlinks} {target source path x : String} {e : Entry} {entries : List Entry}

/-! ## One link -/

theorem sources_add (b : Backlinks) (target source path : String) :
    (b.add target source).sources path =
      if path = target then Order.insert compare source (b.sources path) else b.sources path := by
  rw [sources, add, Keyed.lookup_put]
  by_cases hpath : path = target
  · simp [hpath]
  · simp [hpath, sources]

theorem mem_sources_add_iff :
    x ∈ (b.add target source).sources path ↔
      target = path ∧ x = source ∨ x ∈ b.sources path := by
  rw [sources_add]
  by_cases hpath : path = target
  · simp [hpath, Order.mem_insert_iff]
  · simp [hpath, Ne.symm hpath]

/-- The notes that link to a path stand in order, none of them twice. -/
def IsOrdered (b : Backlinks) : Prop := ∀ path, Order.Increasing compare (b.sources path)

theorem IsOrdered.add (h : b.IsOrdered) (target source : String) :
    (b.add target source).IsOrdered := by
  intro path
  rw [sources_add]
  split
  · exact Order.increasing_insert source (h path)
  · exact h path

theorem isOrdered_nil : IsOrdered [] := fun _ => List.Pairwise.nil

/-! ## The links of one entry -/

theorem linksTo_iff : e.linksTo path = true ↔
    ∃ link ∈ e.links.filter (·.found), link.target = path := by
  simp [Entry.linksTo, and_assoc]

theorem mem_sources_addLinks_iff :
    x ∈ (b.addLinks e).sources path ↔
      e.linksTo path = true ∧ x = e.note.path ∨ x ∈ b.sources path := by
  rw [linksTo_iff, addLinks]
  generalize e.links.filter (·.found) = links
  induction links generalizing b with
  | nil => simp
  | cons link links ih =>
    rw [List.foldl_cons, ih, mem_sources_add_iff]
    simp only [List.mem_cons, or_and_right, exists_or, exists_eq_left, or_left_comm, or_assoc]

theorem IsOrdered.addLinks (h : b.IsOrdered) (e : Entry) : (b.addLinks e).IsOrdered := by
  unfold Backlinks.addLinks
  generalize e.links.filter (·.found) = links
  induction links generalizing b with
  | nil => exact h
  | cons link links ih => exact ih (h.add link.target e.note.path)

/-! ## The links of all entries -/

theorem mem_sources_addAll_iff :
    x ∈ (entries.foldl addLinks b).sources path ↔
      (∃ e ∈ entries, e.linksTo path = true ∧ x = e.note.path) ∨ x ∈ b.sources path := by
  induction entries generalizing b with
  | nil => simp
  | cons e entries ih =>
    rw [List.foldl_cons, ih, mem_sources_addLinks_iff]
    simp only [List.mem_cons, or_and_right, exists_or, exists_eq_left, or_left_comm, or_assoc]

theorem IsOrdered.addAll (h : b.IsOrdered) (entries : List Entry) :
    (entries.foldl Backlinks.addLinks b).IsOrdered := by
  induction entries generalizing b with
  | nil => exact h
  | cons e entries ih => exact ih (h.addLinks e)

end Backlinks

namespace Catalogue

variable {notes : List Note} {path : String}

theorem backlinks_ofNotes (notes : List Note) :
    (ofNotes notes).backlinks = (ofNotes notes).entries.foldl Backlinks.addLinks [] := rfl

/-- Noted down for a path are the notes that link to it, -/
theorem sources_perm (notes : List Note) (path : String) :
    ((ofNotes notes).backlinks.sources path).Perm
      (((ofNotes notes).entries.filter (·.linksTo path)).map (·.note.path)) := by
  have hordered : (ofNotes notes).backlinks.IsOrdered :=
    Backlinks.isOrdered_nil.addAll _
  have hsources : ((ofNotes notes).backlinks.sources path).Nodup :=
    (hordered path).imp fun hlt => ne_of_compare_lt hlt
  have hentries : (((ofNotes notes).entries.filter (·.linksTo path)).map (·.note.path)).Nodup :=
    List.pairwise_map.2
      (((increasing_entries_ofNotes notes).filter _).imp fun hlt => ne_of_compare_lt hlt)
  refine (List.perm_ext_iff_of_nodup hsources hentries).2 fun source => ?_
  rw [backlinks_ofNotes, Backlinks.mem_sources_addAll_iff, List.mem_map]
  constructor
  · rintro (⟨e, he, hlinks, rfl⟩ | hnone)
    · exact ⟨e, List.mem_filter.2 ⟨he, hlinks⟩, rfl⟩
    · cases hnone
  · rintro ⟨e, he, rfl⟩
    obtain ⟨he, hlinks⟩ := List.mem_filter.1 he
    exact .inl ⟨e, he, hlinks, rfl⟩

/-- and so many are counted. -/
theorem backlinkCount_ofNotes (notes : List Note) (path : String) :
    (ofNotes notes).backlinkCount path = (ofNotes notes).entries.countP (·.linksTo path) := by
  rw [backlinkCount, (sources_perm notes path).length_eq, List.length_map,
    List.countP_eq_length_filter]

end Catalogue
end NoteSearch.Vault

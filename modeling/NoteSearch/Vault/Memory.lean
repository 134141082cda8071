import NoteSearch.Vault.Catalogue

/-!
# Vaults in memory

A vault in memory keeps its documents three times over: their notes in the order in which they were
last written, their bodies under their paths, and the catalogue of the notes. Each change is
made to all three, one after the other, and they stay in step with each other.
-/
namespace NoteSearch.Vault
open Time

/-- What a vault in memory keeps. -/
structure Memory.Copies where
  /-- The notes of the documents, those written last at the end. -/
  notes : List Note := []
  /-- The bodies of the documents under their paths. -/
  bodies : List (String × String) := []
  /-- The catalogue as it was last made. -/
  catalogue : Catalogue := {}
  deriving Repr, DecidableEq

namespace Memory.Copies

/-- Whether there is a body under a path. -/
def contains (c : Copies) (path : String) : Bool := (c.bodies.lookup path).isSome

/-- The notes but for those of a path. -/
def others (c : Copies) (path : String) : List Note := c.notes.filter (·.path != path)

/-- Write a document, in the place of what had its path; with whether nothing had. -/
def write (c : Copies) (path body : String) (created modified : Instant) : Bool × Copies :=
  let isNew := !c.contains path
  let notes := c.others path ++ [Note.ofBody path body created modified]
  (isNew, { notes, bodies := Keyed.put c.bodies path body, catalogue := .ofNotes notes })

/-- Remove the document of a path, if there is one; with whether there was. -/
def remove (c : Copies) (path : String) : Bool × Copies :=
  if !c.contains path then (false, c)
  else
    let notes := c.others path
    (true, { notes, bodies := Keyed.erase c.bodies path, catalogue := .ofNotes notes })

/-- The body of the document of a path. -/
def read (c : Copies) (path : String) : Except Fault String :=
  match c.bodies.lookup path with
  | some body => .ok body
  | none => .error (.notFound path)

/-! ## The copies in step -/

/-- The copies are those of one vault: no two notes or bodies have one path, each note is that of
the body under its path, there are no other bodies, and the catalogue is that of the notes. -/
structure InStep (c : Copies) : Prop where
  distinct : c.notes.Pairwise fun n n' => n.path ≠ n'.path
  keys : (Keyed.keys c.bodies).Nodup
  extracted : ∀ note ∈ c.notes, ∃ body, c.bodies.lookup note.path = some body ∧
    note = Note.ofBody note.path body note.created note.modified
  noted : ∀ path body, c.bodies.lookup path = some body → ∃ note ∈ c.notes, note.path = path
  catalogued : c.catalogue = .ofNotes c.notes

variable {c : Copies} {path : String} {note : Note}

theorem inStep_empty : InStep {} where
  distinct := .nil
  keys := .nil
  extracted := by simp
  noted := by simp
  catalogued := rfl

theorem mem_others_iff : note ∈ c.others path ↔ note ∈ c.notes ∧ note.path ≠ path := by
  rw [others, List.mem_filter, bne_iff_ne]

/-- Writing keeps the copies in step, -/
theorem InStep.write (h : c.InStep) (path body : String) (created modified : Instant) :
    (c.write path body created modified).2.InStep where
  distinct := by
    refine List.pairwise_append.2 ⟨h.distinct.filter _, List.pairwise_singleton _ _, ?_⟩
    intro n hn n' hn'
    rw [List.mem_singleton.1 hn']
    exact (mem_others_iff.1 hn).2
  keys := Keyed.nodup_keys_put h.keys path body
  extracted n hn := by
    change ∃ b, (Keyed.put c.bodies path body).lookup n.path = some b ∧ _
    rw [Keyed.lookup_put]
    obtain hn | hn := List.mem_append.1 hn
    · obtain ⟨hn, hne⟩ := mem_others_iff.1 hn
      simpa [hne] using h.extracted n hn
    · rw [List.mem_singleton.1 hn]
      exact ⟨body, by simp [Note.ofBody], rfl⟩
  noted p b hb := by
    change (Keyed.put c.bodies path body).lookup p = some b at hb
    rw [Keyed.lookup_put] at hb
    by_cases hp : p = path
    · exact ⟨_, List.mem_append_right _ (List.mem_singleton_self _), hp.symm⟩
    · obtain ⟨n, hn, hpath⟩ := h.noted p b (by simpa [hp] using hb)
      exact ⟨n, List.mem_append_left _ (mem_others_iff.2 ⟨hn, hpath ▸ hp⟩), hpath⟩
  catalogued := rfl

/-- and so does removing. -/
theorem InStep.remove (h : c.InStep) (path : String) : (c.remove path).2.InStep := by
  unfold Copies.remove
  split
  · exact h
  · refine ⟨h.distinct.filter _, ?_, fun n hn => ?_, fun p b hb => ?_, rfl⟩
    · rw [Keyed.keys_erase]
      exact h.keys.filter _
    · obtain ⟨hn, hne⟩ := mem_others_iff.1 hn
      simpa [Keyed.lookup_erase, hne] using h.extracted n hn
    · dsimp only at hb
      rw [Keyed.lookup_erase] at hb
      by_cases hp : p = path
      · simp [hp] at hb
      · obtain ⟨n, hn, hpath⟩ := h.noted p b (by simpa [hp] using hb)
        exact ⟨n, mem_others_iff.2 ⟨hn, hpath ▸ hp⟩, hpath⟩

end Memory.Copies

/-- A vault in memory: copies that are in step. -/
structure Memory extends Memory.Copies where
  inStep : toCopies.InStep := by exact NoteSearch.Vault.Memory.Copies.inStep_empty
  deriving Repr, DecidableEq

namespace Memory

/-- Write a document, in the place of what had its path; with whether nothing had. -/
def write (m : Memory) (path body : String) (created modified : Instant) : Bool × Memory :=
  ((m.toCopies.write path body created modified).1,
    ⟨(m.toCopies.write path body created modified).2, m.inStep.write path body created modified⟩)

/-- Remove the document of a path, if there is one; with whether there was. -/
def remove (m : Memory) (path : String) : Bool × Memory :=
  ((m.toCopies.remove path).1, ⟨(m.toCopies.remove path).2, m.inStep.remove path⟩)

end Memory
end NoteSearch.Vault

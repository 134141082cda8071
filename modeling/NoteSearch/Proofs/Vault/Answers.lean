import NoteSearch.Proofs.Query.RoundTrip
import NoteSearch.Proofs.Vault.Memory

/-!
# Answers

What is answered to a query that can be read is what its terms select. A filter alone selects the
notes of which its term holds, and what the term says of a note can be put in whatever way is
convenient.
-/
namespace NoteSearch.Vault.Catalogue
open Query Search

variable {c : Catalogue}

theorem answer_of_read {query : String} {terms : List Term} (h : read query = .ok terms) :
    c.answer query = .ok (c.select terms) := by
  rw [answer, h]

theorem answer_compile (c : Catalogue) {filters : List Filter}
    (hrender : ∀ f ∈ filters, f.isText = false → f.IsRenderable) :
    c.answer (compile filters) = .ok (c.select (filters.filterMap Term.ofFilter?)) :=
  answer_of_read (read_compile hrender)

/-- A term that is not negated selects the notes of which it holds. -/
theorem select_singleton (c : Catalogue) (kind : TermKind) (target : String) :
    c.select [⟨kind, target, false⟩] =
      (c.entries.filter fun e => c.holds e ⟨kind, target, false⟩).map fun e => c.hit e.note := by
  simp [select]

/-! ## Notes of which something holds -/

variable {P Q : Entry → Prop} [DecidablePred P] [DecidablePred Q]

/-- What is shown of the notes of which something holds, in the order of their paths. -/
def hitsOf (c : Catalogue) (P : Entry → Prop) [DecidablePred P] : List Hit :=
  (c.entries.filter P).map fun e => c.hit e.note

theorem hit_mem_hitsOf {e : Entry} (he : e ∈ c.entries) (hP : P e) : c.hit e.note ∈ c.hitsOf P :=
  List.mem_map_of_mem (List.mem_filter.2 ⟨he, by simpa using hP⟩)

/-- More notes are shown where less is asked of them. -/
theorem hitsOf_subset (h : ∀ e, P e → Q e) : c.hitsOf P ⊆ c.hitsOf Q := by
  intro hit hmem
  obtain ⟨e, hfilter, rfl⟩ := List.mem_map.1 hmem
  obtain ⟨he, hP⟩ := List.mem_filter.1 hfilter
  exact hit_mem_hitsOf he (h e (by simpa using hP))

/-- A filter alone is read back as its term, and answered by the notes of which the term holds. -/
theorem answer_compile_singleton {f : Filter} {kind : TermKind}
    (hterm : Term.ofFilter? f = some ⟨kind, f.value, false⟩) (hrender : f.IsRenderable)
    (hholds : ∀ e ∈ c.entries, c.holds e ⟨kind, f.value, false⟩ = true ↔ P e) :
    read (compile [f]) = .ok [⟨kind, f.value, false⟩] ∧
      c.answer (compile [f]) = .ok (c.hitsOf P) := by
  have hread : read (compile [f]) = .ok [⟨kind, f.value, false⟩] := by
    rw [read_compile (by simpa using fun _ => hrender), List.filterMap_cons_some hterm]
    rfl
  have hfilter : (c.entries.filter fun e => c.holds e ⟨kind, f.value, false⟩) =
      c.entries.filter P :=
    List.filter_congr fun e he => by rw [Bool.eq_iff_iff, hholds e he, decide_eq_true_iff]
  exact ⟨hread, by rw [answer_of_read hread, select_singleton, hfilter, hitsOf]⟩

/-- The entries of a catalogue are those of its notes. -/
theorem note_mem_of_mem_entries {notes : List Note} {e : Entry}
    (h : e ∈ (ofNotes notes).entries) : e.note ∈ notes := by
  rw [entries_ofNotes] at h
  obtain ⟨note, hnote, rfl⟩ := List.mem_map.1 h
  exact Order.mem_of_mem_ofList hnote

end NoteSearch.Vault.Catalogue

import Mathlib.Data.List.Forall2
import NoteSearch.Proofs.Vault.Resolved

/-!
# A note comes or goes

What is known about the other notes of a catalogue stays when a note comes to it that has a path of
its own, or goes from it. Of their links only those are another that lead to this note.
-/
namespace NoteSearch.Vault

/-- Of a link before and after a note has come: it stays, or leads to the note under its label. -/
def Link.StaysOrTurnsTo (path : String) (link link' : Link) : Prop :=
  link' = link ∨ link' = ⟨path, true, link.label⟩

namespace Link

theorem StaysOrTurnsTo.eq {path : String} {link link' : Link} (h : link.StaysOrTurnsTo path link')
    (helsewhere : ¬ (link'.found = true ∧ link'.target = path)) : link' = link := by
  refine h.resolve_right ?_
  rintro rfl
  exact helsewhere ⟨rfl, rfl⟩

theorem staysOrTurnsTo_ofRaw {paths paths' : List String} {q : String} (h : Grows paths paths' q)
    (raw : Markdown.RawLink) : (ofRaw paths raw).StaysOrTurnsTo q (ofRaw paths' raw) := by
  unfold StaysOrTurnsTo ofRaw
  obtain hsame | hturned := h.resolve raw.target
  · rw [hsame]
    exact .inl rfl
  · refine .inr ?_
    rw [hturned]
    cases resolve paths raw.target <;> rfl

theorem label_ofRaw (paths : List String) (raw : Markdown.RawLink) :
    (ofRaw paths raw).label = raw.label := by
  unfold ofRaw
  split <;> rfl

end Link

namespace Catalogue

variable {notes before after : List Note} {q note : Note} {path : String}

theorem grows_paths_ofNotes (before after : List Note) (q : Note) :
    Grows (ofNotes (before ++ after)).paths (ofNotes (before ++ q :: after)).paths q.path where
  before := increasing_paths_ofNotes _
  after := increasing_paths_ofNotes _
  subset path hpath := by
    obtain ⟨note, hnote, rfl⟩ := mem_paths_ofNotes_iff.1 hpath
    have hmem : note ∈ before ++ q :: after :=
      List.perm_middle.mem_iff.2 (List.mem_cons_of_mem q hnote)
    exact mem_paths_ofNotes_iff.2 ⟨note, hmem, rfl⟩
  only path hpath := by
    obtain ⟨note, hnote, rfl⟩ := mem_paths_ofNotes_iff.1 hpath
    obtain rfl | hold := List.mem_cons.1 (List.perm_middle.mem_iff.1 hnote)
    · exact .inl rfl
    · exact .inr (mem_paths_ofNotes_iff.2 ⟨note, hold, rfl⟩)

/-- A note is not taken for another that comes, if that has another path. -/
theorem note?_with_other (hne : path ≠ q.path) :
    (ofNotes (before ++ q :: after)).note? path = (ofNotes (before ++ after)).note? path := by
  simp only [note?_ofNotes, List.reverse_append, List.reverse_cons, List.find?_append]
  simp [hne.symm]

theorem exists_note?_of_mem (h : note ∈ notes) :
    ∃ last, (ofNotes notes).note? note.path = some last := by
  rw [note?_ofNotes, ← Option.isSome_iff_exists, List.find?_isSome]
  exact ⟨note, List.mem_reverse.2 h, beq_self_eq_true _⟩

theorem linksOf_of_note? (h : (ofNotes notes).note? path = some note) :
    (ofNotes notes).linksOf path = note.links.map (Link.ofRaw (ofNotes notes).paths) := by
  rw [note?_ofNotes] at h
  rw [linksOf, entry?_ofNotes, h]
  rfl

/-- When a note comes whose path no other note has, every target leads where it led or to this
note, so none that led somewhere leads nowhere now. The other notes stay, with as many links under
the same labels: each of them stays or leads to the note that has come. So when the
note goes, all links stay but those that led to it. -/
theorem resolve_with_one_more (before after : List Note) (q : Note)
    (hnew : ∀ note ∈ before ++ after, note.path ≠ q.path) :
    let old := ofNotes (before ++ after)
    let new := ofNotes (before ++ q :: after)
    (∀ target, new.resolve target = old.resolve target ∨ new.resolve target = some q.path) ∧
    (∀ target, (old.resolve target).isSome = true → (new.resolve target).isSome = true) ∧
    ∀ d ∈ before ++ after, ∃ note,
      old.note? d.path = some note ∧ new.note? d.path = some note ∧
      (old.linksOf d.path).map (·.label) = note.links.map (·.label) ∧
      List.Forall₂ (Link.StaysOrTurnsTo q.path) (old.linksOf d.path) (new.linksOf d.path) ∧
      ∀ (i : Nat) (link : Link), (new.linksOf d.path)[i]? = some link →
        ¬ (link.found = true ∧ link.target = q.path) → (old.linksOf d.path)[i]? = some link := by
  intro old new
  have hgrows : Grows old.paths new.paths q.path := grows_paths_ofNotes before after q
  have hleads : ∀ target, new.resolve target = old.resolve target ∨
      new.resolve target = some q.path := hgrows.resolve
  have hturns := Link.staysOrTurnsTo_ofRaw hgrows
  refine ⟨hleads, fun target hold => ?_, fun d hd => ?_⟩
  · obtain hsame | hturned := hleads target
    · rwa [hsame]
    · rw [hturned]
      rfl
  · obtain ⟨note, hold⟩ := exists_note?_of_mem hd
    have hkept : new.note? d.path = some note := (note?_with_other (hnew d hd)).trans hold
    refine ⟨note, hold, hkept, ?_⟩
    rw [linksOf_of_note? hold, linksOf_of_note? hkept]
    refine ⟨?_, ?_, fun i link hlink helsewhere => ?_⟩
    · rw [List.map_map]
      exact List.map_congr_left fun raw _ => Link.label_ofRaw old.paths raw
    · rw [List.forall₂_map_left_iff, List.forall₂_map_right_iff, List.forall₂_same]
      exact fun raw _ => hturns raw
    · rw [List.getElem?_map, Option.map_eq_some_iff] at hlink
      obtain ⟨raw, hraw, rfl⟩ := hlink
      rw [List.getElem?_map, hraw, (hturns raw).eq helsewhere]
      rfl

/-- A note comes to the root that has the name of one in a folder. -/
theorem resolve_with_one_more_above :
    let deep := Note.ofBody "plans/a.md" "" {} {}
    let linking := Note.ofBody "b.md" "[[a|the plan]] [[plans/a]] [[c]]" {} {}
    let q := Note.ofBody "a.md" "" {} {}
    let old := ofNotes [deep, linking]
    let new := ofNotes [deep, q, linking]
    (∀ note ∈ [deep, linking], note.path ≠ q.path) ∧
      old.linksOf "b.md" = [⟨"plans/a.md", true, some "the plan"⟩, ⟨"plans/a.md", true, none⟩,
        ⟨"c", false, none⟩] ∧
      new.linksOf "b.md" = [⟨"a.md", true, some "the plan"⟩, ⟨"plans/a.md", true, none⟩,
        ⟨"c", false, none⟩] ∧
      List.Forall₂ (Link.StaysOrTurnsTo "a.md") (old.linksOf "b.md") (new.linksOf "b.md") := by
  intro deep linking q old new
  have hnew : ∀ note ∈ [deep] ++ [linking], note.path ≠ q.path := by decide
  obtain ⟨-, -, hothers⟩ := resolve_with_one_more [deep] [linking] q hnew
  obtain ⟨_, -, -, -, hlinks, -⟩ := hothers linking (by simp)
  exact ⟨hnew, by decide +kernel, by decide +kernel, hlinks⟩

end Catalogue
end NoteSearch.Vault

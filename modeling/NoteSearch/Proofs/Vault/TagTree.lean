import NoteSearch.Proofs.Filter.Marked
import NoteSearch.Proofs.Markdown.Places
import NoteSearch.Proofs.Vault.Answers

/-!
# Tags and their parts

The tags of a catalogue are counted once for each note that carries them. A note is found by every
tag it carries and by each part of such a tag, in whatever case this is written; so what is found by
a part of a tag includes all that is found by the tag.
-/
namespace NoteSearch.Vault
open Text Query

/-! ## Counting -/

/-- Where no list repeats an element, all of them together hold it as often as there are lists
that do. -/
theorem count_flatMap_of_nodup {α β : Type} [DecidableEq β] {f : α → List β} {l : List α}
    (h : ∀ a ∈ l, (f a).Nodup) (b : β) :
    (l.flatMap f).count b = l.countP fun a => b ∈ f a := by
  induction l with
  | nil => rfl
  | cons a l ih =>
    obtain ⟨ha, hl⟩ := List.forall_mem_cons.1 h
    rw [List.flatMap_cons, List.count_append, ih hl, ha.count, List.countP_cons, Nat.add_comm]
    simp

namespace Catalogue

variable {c : Catalogue}

theorem mem_tagUses_iff {tag : String} :
    tag ∈ c.tagUses ↔ ∃ e ∈ c.entries, tag ∈ e.note.tags :=
  List.mem_flatMap

theorem map_fst_tags : c.tags.map Prod.fst = Order.ofList compare c.tagUses := by
  simp [tags, Function.comp_def]

/-- A tag is counted where it comes up, and as often as notes carry it. -/
theorem count_of_mem_tags (hnodup : ∀ e ∈ c.entries, e.note.tags.Nodup) {tag : String} {count : Nat}
    (h : (tag, count) ∈ c.tags) :
    1 ≤ count ∧ count = c.entries.countP fun e => tag ∈ e.note.tags := by
  obtain ⟨tag', hmem, heq⟩ := List.mem_map.1 h
  obtain ⟨rfl, rfl⟩ := Prod.mk.inj heq
  refine ⟨?_, count_flatMap_of_nodup hnodup tag'⟩
  exact List.one_le_count_iff.2 (Order.mem_of_mem_ofList hmem)

end Catalogue

/-! ## Finding -/

/-- The note carries the tag or one below it, cases aside. -/
def Entry.IsUnder (tag : String) (e : Entry) : Prop :=
  ∃ own ∈ e.note.tags, Path.IsWithin (lower tag.toList) (lower own.toList)

instance (tag : String) : DecidablePred (Entry.IsUnder tag) :=
  fun e => inferInstanceAs (Decidable (∃ own ∈ e.note.tags, _))

theorem Entry.IsUnder.of_isWithin {tag below : String} {e : Entry} (h : e.IsUnder below)
    (hwithin : Path.IsWithin (lower tag.toList) (lower below.toList)) : e.IsUnder tag := by
  obtain ⟨own, hown, hbelow⟩ := h
  exact ⟨own, hown, hwithin.trans hbelow⟩

namespace Catalogue

/-- A marked value is answered by the notes that carry it or a tag below it. -/
theorem answer_tag (c : Catalogue) {value : String} (h : IsMarked value.toList) :
    read (compile [⟨.tag, value, false⟩]) = .ok [⟨.tag, value, false⟩] ∧
      c.answer (compile [⟨.tag, value, false⟩]) = .ok (c.hitsOf (Entry.IsUnder value)) := by
  refine answer_compile_singleton rfl h.renders fun e _ => ?_
  simp only [holds, h.comparedTag_eq, List.any_eq_true, Path.within_iff, Entry.IsUnder]

/-- The tags of a catalogue are those of its notes, each counted once for every note that carries
it. A note is found by every part of each of its tags, in whatever case the part is written, and
whatever is found by a tag below a part is found by the part. -/
theorem tags_agree_with_queries (notes : List Note) (folders : List String)
    (hnotes : ∀ note ∈ notes, ∃ body, note.tags = Markdown.tags body) :
    let c := (ofNotes notes).withFolders folders
    Order.Increasing compare (c.tags.map Prod.fst) ∧
    (∀ tag, tag ∈ c.tags.map Prod.fst ↔ ∃ e ∈ c.entries, tag ∈ e.note.tags) ∧
    (∀ tag count, (tag, count) ∈ c.tags →
      1 ≤ count ∧ count = c.entries.countP fun e => tag ∈ e.note.tags) ∧
    ∀ e ∈ c.entries, ∀ tag ∈ e.note.tags, ∀ part written : String,
      Path.IsWithin part.toList tag.toList → lower written.toList = lower part.toList →
      read (compile [⟨.tag, written, false⟩]) = .ok [⟨.tag, written, false⟩] ∧
      c.answer (compile [⟨.tag, written, false⟩]) = .ok (c.hitsOf (Entry.IsUnder written)) ∧
      c.hit e.note ∈ c.hitsOf (Entry.IsUnder written) ∧
      ∀ below : String, Path.IsWithin (lower written.toList) (lower below.toList) →
        (∀ d ∈ below.toList, isBlank d = false) →
        c.answer (compile [⟨.tag, below, false⟩]) = .ok (c.hitsOf (Entry.IsUnder below)) ∧
        c.hitsOf (Entry.IsUnder below) ⊆ c.hitsOf (Entry.IsUnder written) := by
  intro c
  have htags : ∀ e ∈ c.entries, ∃ body, e.note.tags = Markdown.tags body :=
    fun e he => hnotes e.note (note_mem_of_mem_entries he)
  refine ⟨?_, fun tag => ?_, fun tag count => count_of_mem_tags fun e he => ?_, ?_⟩
  · rw [map_fst_tags]
    exact Order.increasing_ofList _
  · rw [map_fst_tags, Order.mem_ofList_iff, mem_tagUses_iff]
  · obtain ⟨body, hbody⟩ := htags e he
    rw [hbody]
    exact Markdown.nodup_tags body
  · intro e he tag htag part written hpart hwritten
    obtain ⟨body, hbody⟩ := htags e he
    -- Being marked goes from the tag to its part, and from there to the part in any case.
    have hpartMarked : IsMarked part.toList :=
      (isMarked_of_mem_tags (hbody ▸ htag)).of_isWithin hpart
    have hmarked : IsMarked written.toList := hpartMarked.of_lower_eq hwritten
    obtain ⟨hread, hanswer⟩ := c.answer_tag hmarked
    refine ⟨hread, hanswer, hit_mem_hitsOf he ⟨tag, htag, hwritten ▸ hpart.lower⟩, ?_⟩
    intro below hbelow hblank
    have hmarkedBelow : IsMarked below.toList := hmarked.of_lower_isWithin hbelow hblank
    exact ⟨(c.answer_tag hmarkedBelow).2, hitsOf_subset fun e hunder => hunder.of_isWithin hbelow⟩

/-- Before a slash a capital sigma ends a word, as it does at the end of a tag. -/
theorem tags_agree_with_queries_at_sigma :
    let note := Note.ofBody "a.md" "see #ΟΔΥΣ/x" {} {}
    let c := (ofNotes [note]).withFolders []
    c.answer (compile [⟨.tag, "#οδυς", false⟩]) = .ok (c.hitsOf (Entry.IsUnder "#οδυς")) ∧
      c.hit note ∈ c.hitsOf (Entry.IsUnder "#οδυς") := by
  intro note c
  obtain ⟨-, -, -, hfound⟩ := tags_agree_with_queries [note] []
    (by simpa using ⟨_, rfl⟩)
  obtain ⟨-, hanswer, hhit, -⟩ := hfound ⟨note, []⟩ (by decide +kernel) "#ΟΔΥΣ/x"
    (by decide +kernel) "#ΟΔΥΣ" "#οδυς" (by decide) (by decide +kernel)
  exact ⟨hanswer, hhit⟩

end Catalogue
end NoteSearch.Vault

import Mathlib.Data.List.Nodup
import NoteSearch.Proofs.Filter.Keys
import NoteSearch.Proofs.Markdown.Extracted
import NoteSearch.Proofs.Vault.Memory
import NoteSearch.Suggestion.Collected

/-!
# Which suggestions are kept

Suggestions are told apart by their keys. So what is dropped are those without a value, those that
come again, and those that resemble an earlier one. Nothing else is dropped; and only repetitions
are if no suggestion mimics another.
-/
namespace NoteSearch.Suggestion
open Markdown

variable {filters before : List Filter} {seen : List String} {f g : Filter}

/-! ## Keys that have been seen -/

theorem distinct_sublist (seen : List String) (filters : List Filter) :
    (distinct seen filters).Sublist filters := by
  induction filters generalizing seen with
  | nil => exact .refl []
  | cons f filters ih =>
    simp only [distinct]
    split
    · exact (ih seen).cons f
    · exact (ih _).cons_cons f

/-- No key comes twice, and none that was seen comes again. -/
theorem keys_distinct (seen : List String) (filters : List Filter) :
    ((distinct seen filters).map Filter.key).Nodup ∧
      ∀ f ∈ distinct seen filters, f.key ∉ seen := by
  induction filters generalizing seen with
  | nil => simp [distinct]
  | cons f filters ih =>
    simp only [distinct]
    split
    · exact ih seen
    · next hnew =>
      obtain ⟨hnodup, hunseen⟩ := ih (f.key :: seen)
      rw [List.contains_iff_mem] at hnew
      refine ⟨List.nodup_cons.2 ⟨fun hmem => ?_, hnodup⟩, List.forall_mem_cons.2 ⟨hnew, ?_⟩⟩
      · obtain ⟨g, hg, hkey⟩ := List.mem_map.1 hmem
        exact hunseen g hg (hkey ▸ List.mem_cons_self)
      · exact fun g hg hseen => hunseen g hg (List.mem_cons_of_mem _ hseen)

/-- Of every key that was not seen a filter is kept. -/
theorem exists_mem_distinct (hf : f ∈ filters) (hunseen : f.key ∉ seen) :
    ∃ g ∈ distinct seen filters, g.key = f.key := by
  induction filters generalizing seen with
  | nil => cases hf
  | cons first filters ih =>
    simp only [distinct]
    split
    · next hold =>
      rw [List.contains_iff_mem] at hold
      obtain rfl | hf := List.mem_cons.1 hf
      · exact absurd hold hunseen
      · exact ih hf hunseen
    · by_cases hkey : f.key = first.key
      · exact ⟨first, List.mem_cons_self, hkey.symm⟩
      · obtain rfl | hf := List.mem_cons.1 hf
        · exact absurd rfl hkey
        · have hnot : f.key ∉ first.key :: seen := by simp [hkey, hunseen]
          obtain ⟨g, hg, hsame⟩ := ih hf hnot
          exact ⟨g, List.mem_cons_of_mem _ hg, hsame⟩

/-- Where keys tell the filters apart, those are kept that have not come before. -/
theorem distinct_eq_firsts {all : List Filter}
    (hkeys : ∀ f ∈ all, ∀ g ∈ all, f.key = g.key → f = g) (hbefore : before ⊆ all)
    (hfilters : filters ⊆ all) :
    distinct (before.map Filter.key) filters = (firsts filters).filter (· ∉ before) := by
  induction filters generalizing before with
  | nil => rfl
  | cons f filters ih =>
    obtain ⟨hf, hrest⟩ := List.cons_subset.1 hfilters
    have hseen : (before.map Filter.key).contains f.key = decide (f ∈ before) := by
      rw [Bool.eq_iff_iff, List.contains_iff_mem, List.mem_map, decide_eq_true_iff]
      constructor
      · rintro ⟨g, hg, hkey⟩
        exact hkeys g (hbefore hg) f hf hkey ▸ hg
      · exact fun hold => ⟨f, hold, rfl⟩
    simp only [distinct, hseen, firsts, decide_eq_true_iff]
    split
    · next hold =>
      rw [ih hbefore hrest, List.filter_cons_of_neg (by simpa using hold), List.filter_filter]
      refine List.filter_congr fun g _ => ?_
      by_cases hg : g = f <;> simp [hg, hold]
    · next hnew =>
      have hmore := ih (List.cons_subset.2 ⟨hf, hbefore⟩) hrest
      rw [List.map_cons] at hmore
      rw [hmore, List.filter_cons_of_pos (by simpa using hnew), List.filter_filter]
      congr 1
      refine List.filter_congr fun g _ => ?_
      by_cases hg : g = f <;> simp [hg]

/-! ## What is dropped -/

/-- The filters that have a value. -/
def valued (filters : List Filter) : List Filter := filters.filter (!·.value.isEmpty)

theorem mem_valued_iff : f ∈ valued filters ↔ f ∈ filters ∧ f.value ≠ "" := by
  simp [valued]

theorem mem_of_mem_dedup (h : f ∈ dedup filters) : f ∈ filters ∧ f.value ≠ "" :=
  mem_valued_iff.1 ((distinct_sublist [] _).mem h)

/-- Filters that are kept are told apart by their keys. -/
theorem eq_of_mem_dedup (hf : f ∈ dedup filters) (hg : g ∈ dedup filters) (hkey : f.key = g.key) :
    f = g :=
  List.inj_on_of_nodup_map (keys_distinct [] (valued filters)).1 hf hg hkey

/-- The sort by length neither drops nor adds suggestions. -/
theorem mem_collect_iff {c : Vault.Catalogue} : f ∈ collect c ↔ f ∈ dedup (sources c) :=
  List.mem_mergeSort

/-- Two filters with one key are one, or one of them mimics the other, so keys tell filters apart
exactly where none does. Of every suggestion that has a value one is kept that resembles it, and
what is kept are the first of equal ones exactly if no suggestion mimics another. -/
theorem dedup_eq_firsts_iff (f g : Filter) (filters : List Filter) :
    (f.key = g.key ↔ f.Resembles g) ∧
    ((f.key = g.key ↔ f = g) ↔ ¬ f.Mimics g ∧ ¬ g.Mimics f) ∧
    (∀ f ∈ valued filters, ∃ g ∈ dedup filters, f.Resembles g) ∧
    (dedup filters = firsts (valued filters) ↔
      ∀ f ∈ valued filters, ∀ g ∈ valued filters, ¬ f.Mimics g) := by
  refine ⟨Filter.key_eq_iff_resembles, ⟨fun hkey => ⟨?_, ?_⟩, ?_⟩, fun f hf => ?_, ?_, ?_⟩
  · exact fun hfg => hfg.ne (hkey.1 hfg.key_eq)
  · exact fun hgf => hgf.ne (hkey.1 hgf.key_eq.symm).symm
  · rintro ⟨hfg, hgf⟩
    exact Filter.key_eq_iff_eq hfg hgf
  · obtain ⟨g, hg, hkey⟩ := @exists_mem_distinct (valued filters) [] f hf List.not_mem_nil
    exact ⟨g, hg, Filter.key_eq_iff_resembles.1 hkey.symm⟩
  · intro hdedup f hf g hg hmimics
    rw [← mem_firsts, ← hdedup] at hf hg
    exact hmimics.ne (eq_of_mem_dedup hf hg hmimics.key_eq)
  · intro hnone
    have hkeys : ∀ f ∈ valued filters, ∀ g ∈ valued filters, f.key = g.key → f = g :=
      fun f hf g hg => (Filter.key_eq_iff_eq (hnone f hf g hg) (hnone g hg f hf)).1
    have hfirsts := distinct_eq_firsts hkeys (List.nil_subset _) (List.Subset.refl _)
    exact hfirsts.trans (by simp)

theorem dedup_drops_missing_link :
    let there : Filter := ⟨.link true none, "nofile:x.md", false⟩
    let missing : Filter := ⟨.link false none, "x.md", false⟩
    let c := (Vault.Memory.ofEdits [.write "nofile:x.md" "see [[x.md]]" {} {}]).catalogue
    there ≠ missing ∧ there.key = missing.key ∧ dedup [there, missing] = [there] ∧
      missing ∈ sources c ∧ missing ∉ collect c := by
  intro there missing c
  have hsources : sources c = [there, missing, ⟨.backlink, "nofile:x.md", false⟩] := by
    decide +kernel
  rw [mem_collect_iff, hsources]
  decide +kernel

end NoteSearch.Suggestion

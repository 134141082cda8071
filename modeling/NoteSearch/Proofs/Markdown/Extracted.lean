import NoteSearch.Markdown.Links
import NoteSearch.Markdown.Tags
import NoteSearch.Proofs.Text.Trimming

/-!
# What is extracted from a body

A tag is its mark and a word of the characters that tags may hold, none of which is a blank. The
target and the label of a link are trimmed and not empty, and the target holds none of the
characters that end it. A scan that goes on behind what it finds lists what stands at all places, if
nothing starts inside of what it passes over.
-/
namespace NoteSearch.Text

/-- No character lies in both of two sets of ranges that lie apart. -/
theorem Ranges.has_eq_false {ranges ranges' : Ranges} {c : Char}
    (hapart : ∀ r ∈ ranges, ∀ r' ∈ ranges', r.2 < r'.1 ∨ r'.2 < r.1) (h : ranges.has c = true) :
    ranges'.has c = false := by
  obtain ⟨r, hr, hin⟩ := List.any_eq_true.1 h
  refine List.any_eq_false.2 fun r' hr' hin' => ?_
  have hdisjoint := hapart r hr r' hr'
  simp only [Bool.and_eq_true, decide_eq_true_eq] at hin hin'
  omega

theorem not_blank_of_isLetter {c : Char} (h : isLetter c = true) : isBlank c = false :=
  Ranges.has_eq_false (by decide +kernel) h

theorem not_blank_of_isNumber {c : Char} (h : isNumber c = true) : isBlank c = false :=
  Ranges.has_eq_false (by decide +kernel) h

end NoteSearch.Text

namespace NoteSearch.Markdown
open Text

/-! ## Runs -/

section
variable {p : Char → Bool} {run after : List Char}

/-- A run ends where another character, or none, follows. -/
theorem takeWhile_run (hrun : ∀ c ∈ run, p c = true) (hafter : ∀ c ∈ after.head?, p c = false) :
    (run ++ after).takeWhile p = run := by
  rw [List.takeWhile_append_of_pos hrun]
  cases after with
  | nil => simp
  | cons c after => simp [hafter c rfl]

theorem dropWhile_run (hrun : ∀ c ∈ run, p c = true) (hafter : ∀ c ∈ after.head?, p c = false) :
    (run ++ after).dropWhile p = after := by
  rw [List.dropWhile_append_of_pos hrun]
  cases after with
  | nil => rfl
  | cons c after => simp [hafter c rfl]

end

/-! ## Places -/

/-- The list is of what stands at the places from the first one on, in their order. -/
structure ListsFrom {α : Type} (At : Nat → α → Prop) (first : Nat) (placed : List (Nat × α)) :
    Prop where
  increasing : placed.Pairwise fun x y => x.1 < y.1
  mem_iff : ∀ place a, (place, a) ∈ placed ↔ first ≤ place ∧ At place a

namespace ListsFrom

variable {α : Type} {At : Nat → α → Prop} {first next : Nat} {placed : List (Nat × α)} {a : α}

theorem nil (hnone : ∀ place a, At place a → place < first) : ListsFrom At first [] where
  increasing := .nil
  mem_iff place a := iff_of_false List.not_mem_nil fun h => Nat.not_lt.2 h.1 (hnone place a h.2)

/-- What stands at the first place comes before what stands behind it, if nothing starts inside. -/
theorem cons (h : ListsFrom At next placed) (hnext : first < next) (hfirst : At first a)
    (honly : ∀ a', At first a' → a' = a)
    (hinside : ∀ place a', At place a' → first < place → next ≤ place) :
    ListsFrom At first ((first, a) :: placed) where
  increasing := List.pairwise_cons.2
    ⟨fun x hx => Nat.lt_of_lt_of_le hnext ((h.mem_iff x.1 x.2).1 hx).1, h.increasing⟩
  mem_iff place a' := by
    rw [List.mem_cons, Prod.mk.injEq, h.mem_iff]
    constructor
    · rintro (⟨rfl, rfl⟩ | ⟨hle, hlater⟩)
      · exact ⟨Nat.le_refl _, hfirst⟩
      · exact ⟨Nat.le_trans (Nat.le_of_lt hnext) hle, hlater⟩
    · rintro ⟨hle, hat⟩
      obtain rfl | hlt := Nat.eq_or_lt_of_le hle
      · exact .inl ⟨rfl, honly a' hat⟩
      · exact .inr ⟨hinside place a' hat hlt, hat⟩

/-- A place at which nothing stands is passed over. -/
theorem skip (h : ListsFrom At (first + 1) placed) (hnone : ∀ a, ¬ At first a) :
    ListsFrom At first placed where
  increasing := h.increasing
  mem_iff place a := by
    rw [h.mem_iff]
    refine and_congr_left fun hat => ⟨Nat.le_of_succ_le, fun hle => ?_⟩
    obtain rfl | hlt := Nat.eq_or_lt_of_le hle
    · exact absurd hat (hnone a)
    · exact hlt

end ListsFrom

/-! ## Tags -/

@[simp] theorem mem_firsts {α : Type} [BEq α] [LawfulBEq α] {a : α} {l : List α} :
    a ∈ firsts l ↔ a ∈ l := by
  induction l with
  | nil => rfl
  | cons b l ih => by_cases h : a = b <;> simp [firsts, h, ih]

theorem not_blank_of_isTagChar {c : Char} (h : isTagChar c = true) : isBlank c = false := by
  simp only [isTagChar, Bool.or_eq_true, beq_iff_eq] at h
  obtain (((hletter | hnumber) | rfl) | rfl) | rfl := h
  · exact not_blank_of_isLetter hletter
  · exact not_blank_of_isNumber hnumber
  all_goals decide

theorem isTagChar_of_mem_tagRuns {free : Bool} {cs run : List Char} (h : run ∈ tagRuns free cs) :
    ∀ c ∈ run, isTagChar c = true := by
  fun_induction tagRuns free cs with
  | case1 free => cases h
  | case2 free c rest hstart ih =>
    obtain rfl | hlater := List.mem_cons.1 h
    · exact fun c hc => List.mem_takeWhile_imp hc
    · exact ih hlater
  | case3 free c rest hstart ih => exact ih h

theorem withoutSlashes_subset (run : List Char) : withoutSlashes run ⊆ run :=
  (List.rdropWhile_prefix (· == '/') run).sublist.subset

/-- A tag is its mark and a word that is not empty. -/
theorem exists_word_of_mem_tags {body tag : String} (h : tag ∈ tags body) :
    ∃ run, tag.toList = '#' :: run ∧ run ≠ [] ∧ ∀ c ∈ run, isTagChar c = true := by
  rw [tags, mem_firsts] at h
  obtain ⟨word, hword, rfl⟩ := List.mem_map.1 h
  obtain ⟨hword, hworded⟩ := List.mem_filter.1 hword
  obtain ⟨run, hrun, rfl⟩ := List.mem_map.1 hword
  refine ⟨withoutSlashes run, String.toList_ofList, ?_, fun c hc => ?_⟩
  · rintro hempty
    rw [hempty] at hworded
    cases hworded
  · exact isTagChar_of_mem_tagRuns hrun c (withoutSlashes_subset run hc)

/-! ## Links -/

theorem isTargetChar_of_linkAt? {cs target rest : List Char} {label : Option (List Char)}
    (h : linkAt? cs = some (target, label, rest)) : ∀ c ∈ target, isTargetChar c = true := by
  obtain ⟨opened, -, h⟩ := Option.bind_eq_some_iff.1 h
  dsimp only at h
  split at h
  · cases h
  · obtain ⟨_, -, h⟩ := Option.bind_eq_some_iff.1 h
    obtain ⟨rfl, -⟩ := Prod.mk.inj (Option.some.inj h)
    exact fun c hc => List.mem_takeWhile_imp hc

theorem isTargetChar_of_mem_linksFrom {fuel : Nat} {cs target : List Char}
    {label : Option (List Char)} (h : (target, label) ∈ linksFrom fuel cs) :
    ∀ c ∈ target, isTargetChar c = true := by
  fun_induction linksFrom fuel cs with
  | case1 => cases h
  | case2 => cases h
  | case3 fuel c cs target' label' rest hlink ih =>
    obtain heq | hlater := List.mem_cons.1 h
    · cases heq
      exact isTargetChar_of_linkAt? hlink
    · exact ih hlater
  | case4 fuel c cs hlink ih => exact ih h

/-- The target and the label of a link are trimmed and not empty, and nothing that ends a target
stands in it. -/
structure RawLink.IsPlain (raw : RawLink) : Prop where
  target_ne : raw.target ≠ ""
  target_trimmed : IsTrimmed raw.target
  target_chars : ∀ c ∈ raw.target.toList, isTargetChar c = true
  label_ne : ∀ label, raw.label = some label → label ≠ ""
  label_trimmed : ∀ label, raw.label = some label → IsTrimmed label

/-- What is read of the two parts of a link: the target trimmed, if it is not blank, and with it the
label trimmed, if there is one that is not blank. -/
theorem ofParts?_eq_some_iff {target : List Char} {label : Option (List Char)} {raw : RawLink} :
    RawLink.ofParts? target label = some raw ↔
      trim target ≠ [] ∧ raw.target = String.ofList (trim target) ∧
      ∀ l, raw.label = some l ↔
        ∃ chars ∈ label, trim chars ≠ [] ∧ l = String.ofList (trim chars) := by
  obtain ⟨target', label'⟩ := raw
  have hlabel : ∀ l, ((label.map trim).bind fun l =>
      if l.isEmpty then none else some (String.ofList l)) = some l ↔
        ∃ chars ∈ label, trim chars ≠ [] ∧ l = String.ofList (trim chars) := by
    intro l
    cases label with
    | none => simp
    | some chars =>
      simp only [Option.map_some, Option.bind_some, Option.mem_some_iff, exists_eq_left']
      split
      · next hblank => simp [List.isEmpty_iff.1 hblank]
      · next hne => rw [Option.some.injEq, eq_comm, and_iff_right (by simpa using hne)]
  unfold RawLink.ofParts?
  split
  · next hblank => exact iff_of_false (by simp) fun h => h.1 (by simpa using hblank)
  · next hne =>
    rw [Option.some.injEq, RawLink.mk.injEq]
    constructor
    · rintro ⟨rfl, rfl⟩
      exact ⟨by simpa using hne, rfl, hlabel⟩
    · rintro ⟨-, rfl, hread⟩
      exact ⟨rfl, Option.ext fun l => (hlabel l).trans (hread l).symm⟩

theorem isPlain_of_ofParts? {target : List Char} {label : Option (List Char)} {raw : RawLink}
    (hchars : ∀ c ∈ target, isTargetChar c = true)
    (h : RawLink.ofParts? target label = some raw) : raw.IsPlain := by
  obtain ⟨hne, htarget, hlabel⟩ := ofParts?_eq_some_iff.1 h
  have hread : ∀ l, raw.label = some l → l ≠ "" ∧ IsTrimmed l := by
    intro l hl
    obtain ⟨chars, -, hchars, rfl⟩ := (hlabel l).1 hl
    exact ⟨by simpa using hchars, isTrimmed_ofList_trim chars⟩
  refine ⟨by simpa [htarget] using hne, htarget ▸ isTrimmed_ofList_trim target, fun c hc => ?_,
    fun l hl => (hread l hl).1, fun l hl => (hread l hl).2⟩
  rw [htarget, String.toList_ofList] at hc
  exact hchars c (trim_subset target hc)

theorem isPlain_of_mem_links {body : String} {raw : RawLink} (h : raw ∈ links body) :
    raw.IsPlain := by
  obtain ⟨⟨target, label⟩, hmem, hparts⟩ := List.mem_filterMap.1 h
  exact isPlain_of_ofParts? (isTargetChar_of_mem_linksFrom hmem) hparts

end NoteSearch.Markdown

import NoteSearch.Proofs.Filter.Meaning
import NoteSearch.Proofs.Markdown.Extracted
import NoteSearch.Proofs.Text.Lowering
import NoteSearch.Proofs.Text.Trimming

/-!
# Marked values

A value that begins with the mark of tags and holds no blank is compared as it is but for its case,
and it can stand in a query. Tags are such values, and so are their parts in any case.
-/
namespace NoteSearch
open Text Vault

/-- The text begins with the mark of tags and holds no blank. -/
structure IsMarked (text : List Char) : Prop where
  marked : text.head? = some '#'
  unbroken : ∀ c ∈ text, isBlank c = false

/-! ## Parts -/

/-- A part of a part is a part of the whole. -/
theorem Vault.Path.IsWithin.trans {inner part text : List Char} (hinner : IsWithin inner part)
    (hpart : IsWithin part text) : IsWithin inner text := by
  obtain rfl | ⟨rest, rfl⟩ := hinner
  · exact hpart
  · obtain rfl | ⟨more, rfl⟩ := hpart
    · exact .inr ⟨rest, rfl⟩
    · exact .inr ⟨rest ++ ['/'] ++ more, by simp⟩

theorem Vault.Path.IsWithin.head? {part text : List Char} {c : Char} (h : IsWithin part text)
    (hhead : part.head? = some c) : text.head? = some c := by
  obtain rfl | ⟨rest, rfl⟩ := h
  · exact hhead
  · obtain ⟨part, rfl⟩ := List.head?_eq_some_iff.1 hhead
    rfl

theorem lowerChar_slash : lowerChar '/' = ['/'] := by decide

/-- A part that is cut off before a slash is cut off there in lower case too: the slash ends a word
as the end of the text does. -/
theorem Vault.Path.IsWithin.lower {part text : List Char} (h : IsWithin part text) :
    IsWithin (lower part) (lower text) := by
  obtain rfl | ⟨rest, rfl⟩ := h
  · exact .inl rfl
  · have hcut : Text.lower (part ++ '/' :: rest) =
        Text.lower part ++ lowerChar '/' ++ Text.lower rest :=
      lower_append_cons (by decide +kernel) (by decide +kernel) part rest
    rw [List.append_assoc, List.singleton_append, hcut, lowerChar_slash]
    exact .inr (List.prefix_append _ _)

theorem IsMarked.of_isWithin {part text : List Char} (h : IsMarked text)
    (hpart : Path.IsWithin part text) : IsMarked part := by
  obtain rfl | ⟨rest, rfl⟩ := hpart
  · exact h
  · refine ⟨?_, fun c hc => h.unbroken c (by simp [hc])⟩
    have hmarked := h.marked
    cases part with
    | nil => simp at hmarked
    | cons c part => simpa using hmarked

/-! ## Cases -/

theorem caseless_of_isBlank {c : Char} (h : isBlank c = true) : caseless.has c = true := by
  rw [caseless, Ranges.has, List.any_cons]
  exact Bool.or_eq_true_iff.2 (.inr h)

/-- Neither the mark nor blanks come or go with the case. -/
theorem isMarked_lower_iff {text : List Char} : IsMarked (lower text) ↔ IsMarked text := by
  have hmark : (lower text).head? = some '#' ↔ text.head? = some '#' :=
    head?_lower_eq_some_iff (by decide)
  have hblank {c : Char} (hc : isBlank c = true) : c ∈ lower text ↔ c ∈ text :=
    mem_lower_iff (caseless_of_isBlank hc)
  constructor
  · refine fun h => ⟨hmark.1 h.marked, fun c hc => Bool.eq_false_iff.2 fun hb => ?_⟩
    exact Bool.eq_false_iff.1 (h.unbroken c ((hblank hb).2 hc)) hb
  · refine fun h => ⟨hmark.2 h.marked, fun c hc => Bool.eq_false_iff.2 fun hb => ?_⟩
    exact Bool.eq_false_iff.1 (h.unbroken c ((hblank hb).1 hc)) hb

/-- A value goes on from a marked one, cases aside, with a mark of its own. -/
theorem IsMarked.of_lower_isWithin {part text : List Char} (h : IsMarked part)
    (hwithin : Path.IsWithin (lower part) (lower text)) (hblank : ∀ c ∈ text, isBlank c = false) :
    IsMarked text :=
  ⟨(head?_lower_eq_some_iff (by decide)).1 (hwithin.head? (isMarked_lower_iff.2 h).marked), hblank⟩

theorem IsMarked.of_lower_eq {text text' : List Char} (h : IsMarked text)
    (hlower : lower text' = lower text) : IsMarked text' :=
  isMarked_lower_iff.1 (hlower ▸ isMarked_lower_iff.2 h)

/-! ## Queries -/

theorem isMarked_of_mem_tags {body tag : String} (h : tag ∈ Markdown.tags body) :
    IsMarked tag.toList := by
  obtain ⟨word, htext, -, hchars⟩ := Markdown.exists_word_of_mem_tags h
  refine ⟨by simp [htext], fun c hc => ?_⟩
  rw [htext] at hc
  obtain rfl | hc := List.mem_cons.1 hc
  · decide
  · exact Markdown.not_blank_of_isTagChar (hchars c hc)

/-- A marked value starts like no term of another kind. -/
theorem IsMarked.renders {text : List Char} (h : IsMarked text) :
    Facet.tag.Renders false text := by
  obtain ⟨word, rfl⟩ := List.head?_eq_some_iff.1 h.marked
  refine ⟨by simp, List.any_eq_false.2 fun c hc => by simp [h.unbroken c hc], ?_⟩
  simp [List.cons_prefix_cons]

/-- A marked value is compared as it is but for its case. -/
theorem IsMarked.comparedTag_eq {value : String} (h : IsMarked value.toList) :
    Catalogue.comparedTag value = lower value.toList := by
  unfold Catalogue.comparedTag
  rw [trim_eq_self_of_not_blank h.unbroken, if_pos (isMarked_lower_iff.2 h).marked]

end NoteSearch

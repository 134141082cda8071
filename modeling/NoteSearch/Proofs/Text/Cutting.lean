import NoteSearch.Text.Blank
import NoteSearch.Text.Pieces

/-!
# The first place of a mark

A cut is made at the first place of a mark. That place is where a part of the text ends if the
mark starts nowhere in the part, not even so that it runs over the end of it. For the marks of
queries this can be told from the part alone.
-/
namespace NoteSearch.Text

theorem after?_eq_none_iff {piece text : List Char} :
    after? piece text = none ↔ ¬ piece <+: text := by
  constructor
  · rintro h ⟨rest, rfl⟩
    simp at h
  · intro h
    cases ha : after? piece text with
    | none => rfl
    | some rest => exact absurd ⟨rest, (after?_eq_some_iff.1 ha).symm⟩ h

/-- The mark starts nowhere in `front`, which is followed by `rest`. -/
def Clear (mark : List Char) : (front rest : List Char) → Prop
  | [], _ => True
  | c :: front, rest => ¬ mark <+: c :: (front ++ rest) ∧ Clear mark front rest

/-- A cut is made at the only place that has no earlier one. -/
theorem cut?_eq_some_iff {mark text front rest : List Char} (hmark : mark ≠ []) :
    cut? mark text = some (front, rest) ↔
      text = front ++ (mark ++ rest) ∧ Clear mark front (mark ++ rest) := by
  induction text generalizing front with
  | nil =>
    have hnone : after? mark [] = none := by
      rw [after?_eq_none_iff, List.prefix_nil]
      exact hmark
    simp [cut?, hnone, hmark]
  | cons c text ih =>
    simp only [cut?]
    cases hafter : after? mark (c :: text) with
    | some found =>
      have htext := after?_eq_some_iff.1 hafter
      simp only [Option.some.injEq, Prod.mk.injEq]
      constructor
      · rintro ⟨rfl, rfl⟩
        exact ⟨htext, trivial⟩
      · rintro ⟨he, hclear⟩
        cases front with
        | nil => exact ⟨rfl, List.append_cancel_left (htext.symm.trans he)⟩
        | cons d front =>
          simp only [List.cons_append, List.cons.injEq] at he
          obtain ⟨rfl, rfl⟩ := he
          exact absurd ⟨found, htext.symm⟩ hclear.1
    | none =>
      have hnone := after?_eq_none_iff.1 hafter
      simp only [Option.map_eq_some_iff]
      constructor
      · rintro ⟨⟨front', rest'⟩, hcut, he⟩
        simp only [Prod.mk.injEq] at he
        obtain ⟨rfl, rfl⟩ := he
        obtain ⟨rfl, hclear⟩ := ih.1 hcut
        exact ⟨rfl, hnone, hclear⟩
      · rintro ⟨he, hclear⟩
        cases front with
        | nil => exact absurd ⟨rest, he.symm⟩ hnone
        | cons d front =>
          simp only [List.cons_append, List.cons.injEq] at he
          obtain ⟨rfl, rfl⟩ := he
          exact ⟨(front, rest), ih.2 ⟨rfl, hclear.2⟩, rfl⟩

/-- Without a cut the mark stands nowhere. -/
theorem not_infix_of_cut?_eq_none {mark text : List Char} (h : cut? mark text = none) :
    ¬ mark <:+: text := by
  induction text with
  | nil =>
    simp only [cut?, Option.map_eq_none_iff, after?_eq_none_iff] at h
    simpa using h
  | cons c text ih =>
    simp only [cut?] at h
    split at h
    · cases h
    · next hnone =>
      rw [List.infix_cons_iff, not_or]
      exact ⟨after?_eq_none_iff.1 hnone, ih (by simpa using h)⟩

/-- A mark that is one character is missed by what does not hold the character. -/
theorem clear_singleton_iff {c : Char} {front rest : List Char} :
    Clear [c] front rest ↔ c ∉ front := by
  induction front with
  | nil => simp [Clear]
  | cons d front ih => simp [Clear, ih]

/-- A cut at one character is made at the first place where the character stands. -/
theorem cut?_singleton_eq_some_iff {c : Char} {text front rest : List Char} :
    cut? [c] text = some (front, rest) ↔ text = front ++ c :: rest ∧ c ∉ front := by
  rw [cut?_eq_some_iff (by simp), clear_singleton_iff]
  rfl

theorem cut?_singleton_eq_none_iff {c : Char} {text : List Char} :
    cut? [c] text = none ↔ c ∉ text := by
  constructor
  · intro hnone hmem
    obtain ⟨front, back, rfl⟩ := List.append_of_mem hmem
    exact not_infix_of_cut?_eq_none hnone ⟨front, back, by simp⟩
  · intro hfree
    cases hcut : cut? [c] text with
    | none => rfl
    | some parts =>
      obtain ⟨rfl, -⟩ := cut?_singleton_eq_some_iff.1 hcut
      simp at hfree

/-- A mark of one character twice may also run over the end of what stands before it. -/
theorem clear_pair_iff {c : Char} {front rest : List Char} :
    Clear [c, c] front ([c, c] ++ rest) ↔ ¬ [c, c] <:+: front ∧ ¬ [c] <:+ front := by
  induction front with
  | nil => simp [Clear]
  | cons d front ih =>
    simp only [Clear, ih, List.infix_cons_iff, List.suffix_cons_iff]
    cases front with
    | nil => simp
    | cons e front => simp [and_assoc]

/-- A mark that ends in a character of its own cannot run over the end of what stands before it. -/
theorem clear_pair_concat_iff {c d : Char} (hne : c ≠ d) {front rest : List Char} :
    Clear [c, c, d] front ([c, c, d] ++ rest) ↔ ¬ [c, c, d] <:+: front := by
  induction front with
  | nil => simp [Clear]
  | cons a front ih =>
    simp only [Clear, ih, List.infix_cons_iff]
    match front with
    | [] => simp [Ne.symm hne]
    | [b] => simp [Ne.symm hne]
    | b :: b' :: front => simp [not_or]

/-- A mark that starts with white space starts nowhere in what holds none. -/
theorem clear_of_not_blank {c : Char} {mark front rest : List Char} (hc : isBlank c = true)
    (hfront : front.any isBlank = false) : Clear (c :: mark) front rest := by
  induction front with
  | nil => trivial
  | cons d front ih =>
    rw [List.any_cons, Bool.or_eq_false_iff] at hfront
    refine ⟨?_, ih hfront.2⟩
    rw [List.cons_prefix_cons]
    rintro ⟨rfl, _⟩
    exact absurd hc (Bool.eq_false_iff.1 hfront.1)

end NoteSearch.Text

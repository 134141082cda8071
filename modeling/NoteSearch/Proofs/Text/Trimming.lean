import Mathlib.Data.List.DropRight
import NoteSearch.Text.Blank

/-!
# What is left of a text without the blanks around it

Blanks are taken off at either end up to the first character that is none. So trimming can be done
in parts around any such character, in either order of the ends, and once is enough.
-/
namespace NoteSearch.Text

variable {cs : List Char} {c : Char}

/-! ## Blanks at one end -/

theorem trimStart_cons_of_not_blank (hc : isBlank c = false) (cs : List Char) :
    trimStart (c :: cs) = c :: cs := by
  rw [trimStart, List.dropWhile_cons_of_neg (by simp [hc])]

theorem trimEnd_concat_of_blank (cs : List Char) (hc : isBlank c = true) :
    trimEnd (cs ++ [c]) = trimEnd cs :=
  List.rdropWhile_concat_pos isBlank cs c hc

theorem trimEnd_concat_of_not_blank (cs : List Char) (hc : isBlank c = false) :
    trimEnd (cs ++ [c]) = cs ++ [c] :=
  List.rdropWhile_concat_neg isBlank cs c (by simp [hc])

theorem trimStart_append_cons (front : List Char) (hc : isBlank c = false) (cs : List Char) :
    trimStart (front ++ c :: cs) = trimStart front ++ c :: cs := by
  induction front with
  | nil => exact trimStart_cons_of_not_blank hc cs
  | cons d front ih =>
    cases hd : isBlank d with
    | true => simpa [trimStart, hd] using ih
    | false => rw [List.cons_append, trimStart_cons_of_not_blank hd,
        trimStart_cons_of_not_blank hd, List.cons_append]

theorem trimEnd_append_cons (front : List Char) (hc : isBlank c = false) (cs : List Char) :
    trimEnd (front ++ c :: cs) = front ++ c :: trimEnd cs := by
  induction cs using List.reverseRecOn with
  | nil => exact trimEnd_concat_of_not_blank front hc
  | append_singleton cs d ih =>
    rw [← List.cons_append, ← List.append_assoc]
    cases hd : isBlank d with
    | true => rw [trimEnd_concat_of_blank _ hd, trimEnd_concat_of_blank _ hd, ih]
    | false =>
      rw [trimEnd_concat_of_not_blank _ hd, trimEnd_concat_of_not_blank _ hd]
      simp

@[simp] theorem trimStart_trimStart (cs : List Char) : trimStart (trimStart cs) = trimStart cs :=
  List.dropWhile_idempotent isBlank cs

@[simp] theorem trimEnd_trimEnd (cs : List Char) : trimEnd (trimEnd cs) = trimEnd cs :=
  List.rdropWhile_idempotent isBlank cs

/-! ## Blanks at both ends -/

/-- What stands between blanks is trimmed on its outer sides only. -/
theorem trim_append_cons (front : List Char) (hc : isBlank c = false) (cs : List Char) :
    trim (front ++ c :: cs) = trimStart front ++ c :: trimEnd cs := by
  rw [trim, trimStart_append_cons front hc, trimEnd_append_cons _ hc]

/-- The blanks at the start and those at the end can be taken off in either order. -/
theorem trimStart_trimEnd (cs : List Char) : trimStart (trimEnd cs) = trim cs := by
  by_cases hsome : ∃ c ∈ cs, isBlank c = false
  · obtain ⟨c, hmem, hc⟩ := hsome
    obtain ⟨front, back, rfl⟩ := List.append_of_mem hmem
    rw [trimEnd_append_cons front hc, trimStart_append_cons front hc, trim_append_cons front hc]
  · have hall : ∀ c ∈ cs, isBlank c = true := by simpa using hsome
    have hstart : trimStart cs = [] := List.dropWhile_eq_nil_iff.2 hall
    have hend : trimEnd cs = [] := List.rdropWhile_eq_nil_iff.2 hall
    rw [trim, hstart, hend]
    rfl

theorem trim_trimEnd (cs : List Char) : trim (trimEnd cs) = trim cs := by
  rw [← trimStart_trimEnd, trimEnd_trimEnd, trimStart_trimEnd]

theorem trimStart_trim (cs : List Char) : trimStart (trim cs) = trim cs := by
  rw [← trimStart_trimEnd, trimStart_trimStart]

theorem trimEnd_trim (cs : List Char) : trimEnd (trim cs) = trim cs := by
  rw [trim, trimEnd_trimEnd]

@[simp] theorem trim_trim (cs : List Char) : trim (trim cs) = trim cs := by
  rw [trim, trimStart_trim, trimEnd_trim]

/-- The text has no blanks at its start and none at its end. -/
def IsTrimmed (s : String) : Prop := trim s.toList = s.toList

instance (s : String) : Decidable (IsTrimmed s) := inferInstanceAs (Decidable (_ = _))

theorem IsTrimmed.trim_eq {s : String} (h : IsTrimmed s) : trim s.toList = s.toList := h

theorem IsTrimmed.trimStart_eq {s : String} (h : IsTrimmed s) : trimStart s.toList = s.toList := by
  rw [← h, trimStart_trim]

theorem IsTrimmed.trimEnd_eq {s : String} (h : IsTrimmed s) : trimEnd s.toList = s.toList := by
  rw [← h, trimEnd_trim]

theorem isTrimmed_ofList_trim (cs : List Char) : IsTrimmed (String.ofList (trim cs)) := by
  rw [IsTrimmed, String.toList_ofList, trim_trim]

/-- What has no blanks at all is left as it is. -/
theorem trim_eq_self_of_not_blank (h : ∀ c ∈ cs, isBlank c = false) : trim cs = cs := by
  have hstart : trimStart cs = cs := by
    cases cs with
    | nil => rfl
    | cons c cs => exact trimStart_cons_of_not_blank (h c List.mem_cons_self) cs
  have hend : trimEnd cs = cs :=
    List.rdropWhile_eq_self_iff.2 fun hne => by simp [h _ (List.getLast_mem hne)]
  rw [trim, hstart, hend]

theorem trim_subset (cs : List Char) : trim cs ⊆ cs :=
  ((List.rdropWhile_prefix isBlank _).sublist.trans (List.dropWhile_sublist isBlank)).subset

/-! ## Nothing but blanks -/

theorem trim_eq_nil_iff : trim cs = [] ↔ ∀ c ∈ cs, isBlank c = true := by
  constructor
  · intro hnil c hc
    by_contra hblank
    obtain ⟨front, back, rfl⟩ := List.append_of_mem hc
    rw [trim_append_cons front (by simpa using hblank)] at hnil
    simp at hnil
  · intro hall
    have hstart : trimStart cs = [] := List.dropWhile_eq_nil_iff.2 hall
    rw [trim, hstart]
    rfl

/-- A text that has no blanks at its start is not made of blanks. -/
theorem trim_eq_nil_iff_of_trimStart (h : trimStart cs = cs) : trim cs = [] ↔ cs = [] := by
  refine ⟨fun hnil => ?_, fun hnil => by rw [hnil, trim_nil]⟩
  rw [← h]
  exact List.dropWhile_eq_nil_iff.2 (trim_eq_nil_iff.1 hnil)

/-- Nor is one that has none at its end. -/
theorem trim_eq_nil_iff_of_trimEnd (h : trimEnd cs = cs) : trim cs = [] ↔ cs = [] := by
  refine ⟨fun hnil => ?_, fun hnil => by rw [hnil, trim_nil]⟩
  rw [← h]
  exact List.rdropWhile_eq_nil_iff.2 (trim_eq_nil_iff.1 hnil)

/-! ## Other characters -/

/-- A text is what is left of it without a character at its end, and that character some times. -/
theorem exists_eq_rdropWhile_append (c : Char) (text : List Char) :
    ∃ n, text = text.rdropWhile (· == c) ++ List.replicate n c := by
  have htrimmed : text.rtakeWhile (· == c) =
      List.replicate (text.rtakeWhile (· == c)).length c :=
    List.eq_replicate_iff.2 ⟨rfl, fun d hd => by simpa using List.mem_rtakeWhile_imp hd⟩
  refine ⟨(text.rtakeWhile (· == c)).length, ?_⟩
  rw [← htrimmed]
  exact List.rdropWhile_append_rtakeWhile.symm

end NoteSearch.Text

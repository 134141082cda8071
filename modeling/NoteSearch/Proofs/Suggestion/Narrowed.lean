import NoteSearch.Suggestion.Basic

/-!
# What is left of the suggestions for an input

Suggestions are narrowed in one pass that stops early: as many as there is room for are taken, and
of the rest it is only seen whether another one would match. What is shown is nevertheless the start
of the list of all that match, behind the input itself, and it is known to be cut exactly if
there are more of them than there is room for. So more room only adds to what is shown, and one more
active filter only takes away what it asks for.
-/
namespace NoteSearch.Suggestion
open Text

variable {wanted : Filter → Bool} {suggestions active : List Filter} {input : String} {f : Filter}
  {max : Nat}

/-! ## Taking what is wanted -/

/-- What is taken is the start of all that is wanted, -/
theorem takeWanted_fst (wanted : Filter → Bool) (n : Nat) (filters : List Filter) :
    (takeWanted wanted n filters).1 = (filters.filter wanted).take n := by
  fun_induction takeWanted wanted n filters with
  | case1 filters => rfl
  | case2 n => rfl
  | case3 n f filters hwanted taken rest htaken ih =>
    rw [List.filter_cons_of_pos hwanted, List.take_succ_cons, ← ih, htaken]
  | case4 n f filters hwanted ih => rw [List.filter_cons_of_neg hwanted, ih]

/-- and what is wanted of the rest is what was not taken. -/
theorem filter_takeWanted_snd (wanted : Filter → Bool) (n : Nat) (filters : List Filter) :
    (takeWanted wanted n filters).2.filter wanted = (filters.filter wanted).drop n := by
  fun_induction takeWanted wanted n filters with
  | case1 filters => rfl
  | case2 n => rfl
  | case3 n f filters hwanted taken rest htaken ih =>
    rw [List.filter_cons_of_pos hwanted, List.drop_succ_cons, ← ih, htaken]
  | case4 n f filters hwanted ih => rw [List.filter_cons_of_neg hwanted, ih]

/-- Something wanted is left exactly if there is more of it than was to be taken. -/
theorem any_takeWanted_snd_iff (wanted : Filter → Bool) (n : Nat) (filters : List Filter) :
    (takeWanted wanted n filters).2.any wanted = true ↔ n < (filters.filter wanted).length := by
  have hleft : (takeWanted wanted n filters).2.any wanted = true ↔
      (filters.filter wanted).drop n ≠ [] := by
    rw [← filter_takeWanted_snd, ne_eq, List.filter_eq_nil_iff, List.any_eq_true]
    simp
  rw [hleft, ne_eq, List.drop_eq_nil_iff, Nat.not_le]

/-! ## What matches an input -/

/-- A suggestion is one for an input: the input stands in its value, upper and lower case aside, and
no active filter asks for the same facet and value, reversed or not. -/
structure IsFor (input : String) (active : List Filter) (f : Filter) : Prop where
  mentioned : lower input.toList <:+: lower f.value.toList
  inactive : ∀ g ∈ active, ¬(g.facet = f.facet ∧ g.value = f.value)

theorem isWanted_iff : isWanted input active f = true ↔ IsFor input active f := by
  have hinactive : (!active.any (·.sameTarget f)) = true ↔
      ∀ g ∈ active, ¬(g.facet = f.facet ∧ g.value = f.value) := by
    simp [Filter.sameTarget]
  rw [isWanted, Bool.and_eq_true, mentions, occurs_iff, hinactive]
  exact ⟨fun ⟨hmentioned, hinactive⟩ => ⟨hmentioned, hinactive⟩,
    fun ⟨hmentioned, hinactive⟩ => ⟨hmentioned, hinactive⟩⟩

instance (input : String) (active : List Filter) (f : Filter) : Decidable (IsFor input active f) :=
  decidable_of_iff _ isWanted_iff

/-- The suggestions for an input, in order. -/
def matching (suggestions : List Filter) (input : String) (active : List Filter) : List Filter :=
  suggestions.filter (IsFor input active ·)

theorem filter_isWanted (suggestions : List Filter) (input : String) (active : List Filter) :
    suggestions.filter (isWanted input active) = matching suggestions input active := by
  refine List.filter_congr fun f _ => ?_
  rw [Bool.eq_iff_iff, isWanted_iff, decide_eq_true_iff]

/-- What an active filter asks for is no longer a suggestion, and nothing else changes. -/
theorem matching_of_mem_iff {more : List Filter} (hmore : ∀ g, g ∈ more ↔ g = f ∨ g ∈ active) :
    matching suggestions input more =
      (matching suggestions input active).filter
        fun g => ¬(f.facet = g.facet ∧ f.value = g.value) := by
  rw [matching, matching, List.filter_filter]
  refine List.filter_congr fun g _ => ?_
  rw [Bool.eq_iff_iff, Bool.and_eq_true, decide_eq_true_iff, decide_eq_true_iff,
    decide_eq_true_iff]
  constructor
  · rintro ⟨hmentioned, hinactive⟩
    exact ⟨hinactive f ((hmore f).2 (.inl rfl)), hmentioned,
      fun g hg => hinactive g ((hmore g).2 (.inr hg))⟩
  · rintro ⟨hother, hmentioned, hinactive⟩
    refine ⟨hmentioned, fun g hg => ?_⟩
    obtain rfl | hg := (hmore g).1 hg
    · exact hother
    · exact hinactive g hg

/-! ## What is shown -/

theorem filters_narrow (suggestions : List Filter) (input : String) (active : List Filter)
    (max : Nat) : (narrow suggestions input active max).filters =
      (ofInput input :: matching suggestions input active).take max := by
  simp only [narrow, takeWanted_fst, filter_isWanted]
  cases max with
  | zero => rfl
  | succ max => simp

theorem truncated_narrow_iff : (narrow suggestions input active max).truncated = true ↔
    max - 1 < (matching suggestions input active).length := by
  rw [← filter_isWanted]
  exact any_takeWanted_snd_iff _ _ _

/-- Shown is the start of what there is to show, the input before all suggestions that match it, and
it counts as cut exactly if more suggestions match than there is room for beside the input. So all
of them are shown unless it is cut. More room only adds to what is shown. One filter more that
is active takes away the suggestions with its facet and value, and no others. -/
theorem shows_start_of_matching (suggestions : List Filter) (input : String)
    (active : List Filter) (max : Nat) :
    let found := matching suggestions input active
    let narrowed := narrow suggestions input active max
    narrowed.filters = (ofInput input :: found).take max ∧
    (narrowed.truncated = true ↔ max - 1 < found.length) ∧
    narrowed.filters.length = min max (1 + found.length) ∧
    (1 ≤ max → narrowed.truncated = false → narrowed.filters = ofInput input :: found) ∧
    (∀ room, max ≤ room → narrowed.filters <+: (narrow suggestions input active room).filters) ∧
    ∀ f more, (∀ g, g ∈ more ↔ g = f ∨ g ∈ active) →
      matching suggestions input more =
        found.filter fun g => ¬(f.facet = g.facet ∧ f.value = g.value) := by
  intro found narrowed
  have hshown : narrowed.filters = (ofInput input :: found).take max :=
    filters_narrow suggestions input active max
  refine ⟨hshown, truncated_narrow_iff, ?_, fun hroom huncut => ?_, fun room hroom => ?_,
    fun f more hmore => matching_of_mem_iff hmore⟩
  · rw [hshown, List.length_take, List.length_cons, Nat.add_comm]
  · have hfits : ¬max - 1 < found.length := by
      rw [← truncated_narrow_iff, huncut]
      exact Bool.false_ne_true
    rw [hshown]
    refine List.take_of_length_le ?_
    rw [List.length_cons]
    omega
  · rw [hshown, filters_narrow]
    exact List.take_prefix_take_left hroom

/-- Of three tags that match, two have room beside the input, and with more room all three are
shown; one of them is hidden once it is active, if only reversed. -/
theorem shows_start_of_matching_of_three :
    let tags : List Filter := [⟨.tag, "#Ab", false⟩, ⟨.folder, "b", false⟩, ⟨.tag, "#a", false⟩,
      ⟨.tag, "#ba", false⟩]
    let narrowed := narrow tags "A" [] 3
    narrowed.truncated = true ∧
      (narrow tags "A" [] 4).filters = ofInput "A" :: matching tags "A" [] ∧
      narrowed.filters <+: (narrow tags "A" [] 4).filters ∧
      matching tags "A" [⟨.tag, "#a", true⟩] = [⟨.tag, "#Ab", false⟩, ⟨.tag, "#ba", false⟩] := by
  intro tags narrowed
  obtain ⟨-, hcut, -, -, hmore, hactive⟩ := shows_start_of_matching tags "A" [] 3
  obtain ⟨-, -, -, hall, -, -⟩ := shows_start_of_matching tags "A" [] 4
  refine ⟨hcut.2 (by decide +kernel), hall (by decide) (by decide +kernel),
    hmore 4 (by decide), ?_⟩
  rw [hactive ⟨.tag, "#a", true⟩ [⟨.tag, "#a", true⟩] (by simp)]
  decide +kernel

end NoteSearch.Suggestion

import NoteSearch.Proofs.Vault.Memory

/-!
# What targets lead to

Whether a target leads anywhere, and where, depends on nothing but which paths there are. Of the
paths that a file name may stand for the one is taken that has the fewest slashes and then comes
first; so one path more changes what a target leads to only if the target now leads there.
-/
namespace NoteSearch.Vault
open Text Markdown

/-! ## The shallowest path -/

/-- Paths by the number of their slashes, then by themselves. -/
def Path.byDepth : String → String → Ordering :=
  compareLex (compareOn fun path => Path.depth path.toList) compare

instance : Std.TransCmp Path.byDepth :=
  inferInstanceAs (Std.TransCmp (compareLex (compareOn _) compare))

variable {paths paths' : List String} {path other q target : String}

theorem Path.isLE_byDepth_iff :
    (byDepth path other).isLE = true ↔ depth path.toList < depth other.toList ∨
      depth path.toList = depth other.toList ∧ (compare path other).isLE = true :=
  Ordering.isLE_then_iff_or.trans
    (or_congr Nat.compare_eq_lt (and_congr_left fun _ => Nat.compare_eq_eq))

/-- Of the paths this one has the fewest slashes, and of those it is the first. -/
structure IsShallowest (paths : List String) (path : String) : Prop where
  mem : path ∈ paths
  least : ∀ other ∈ paths, (Path.byDepth path other).isLE = true

theorem shallowest_eq_none_iff : shallowest paths = none ↔ paths = [] := by
  cases paths with
  | nil => exact iff_of_true rfl rfl
  | cons first paths =>
    simp only [shallowest, reduceCtorEq, iff_false]
    split
    · exact Option.some_ne_none _
    · split <;> exact Option.some_ne_none _

theorem isShallowest_of_shallowest (hpaths : Order.Increasing compare paths)
    (h : shallowest paths = some path) : IsShallowest paths path := by
  refine ⟨mem_of_shallowest h, ?_⟩
  induction paths generalizing path with
  | nil => cases h
  | cons first paths ih =>
    obtain ⟨hfirst, hpaths⟩ := List.pairwise_cons.1 hpaths
    have hself : ∀ path : String, (Path.byDepth path path).isLE = true :=
      fun path => Std.ReflCmp.isLE_rfl
    simp only [shallowest] at h
    cases hrest : shallowest paths with
    | none =>
      obtain rfl := shallowest_eq_none_iff.1 hrest
      obtain rfl : first = path := by simpa [hrest] using h
      intro other hother
      obtain rfl := List.mem_singleton.1 hother
      exact hself other
    | some best =>
      have hbest := ih hpaths hrest
      have hbefore : (compare first best).isLE = true := by
        rw [hfirst best (mem_of_shallowest hrest)]
        rfl
      simp only [hrest] at h
      split at h
      · next hle =>
        obtain rfl : first = path := Option.some.inj h
        have hfirst : (Path.byDepth first best).isLE = true :=
          Path.isLE_byDepth_iff.2 ((Nat.lt_or_eq_of_le hle).imp_right fun heq => ⟨heq, hbefore⟩)
        intro other hother
        obtain rfl | hother := List.mem_cons.1 hother
        · exact hself other
        · exact Std.TransCmp.isLE_trans hfirst (hbest other hother)
      · next hgt =>
        obtain rfl : best = path := Option.some.inj h
        intro other hother
        obtain rfl | hother := List.mem_cons.1 hother
        · exact Path.isLE_byDepth_iff.2 (.inl (Nat.lt_of_not_le hgt))
        · exact hbest other hother

theorem IsShallowest.eq (h : IsShallowest paths path) (h' : IsShallowest paths other) :
    path = other := by
  have heq : Path.byDepth path other = .eq :=
    Std.OrientedCmp.isLE_antisymm (h.least other h'.mem) (h'.least path h.mem)
  exact Std.LawfulEqOrd.compare_eq_iff_eq.1 (compareLex_eq_eq.1 heq).2

theorem shallowest_eq_some_iff (hpaths : Order.Increasing compare paths) :
    shallowest paths = some path ↔ IsShallowest paths path := by
  refine ⟨isShallowest_of_shallowest hpaths, fun h => ?_⟩
  cases hfound : shallowest paths with
  | none =>
    rw [shallowest_eq_none_iff.1 hfound] at h
    cases h.mem
  | some found => rw [(isShallowest_of_shallowest hpaths hfound).eq h]

/-! ## Whether a target leads anywhere -/

/-- Some note has the target for its path, or its path without the ending, or for the name of its
file. White space around the target and slashes before it do not count. -/
def LeadsSomewhere (paths : List String) (target : String) : Prop :=
  String.ofList (plainTarget target) ∈ paths ∨
    String.ofList (withEnding (plainTarget target)) ∈ paths ∨
    '/' ∉ plainTarget target ∧
      ∃ path ∈ paths, Path.last path.toList = fileWanted (plainTarget target)

theorem isSome_shallowest_iff : (shallowest paths).isSome = true ↔ ∃ path, path ∈ paths := by
  rw [Option.isSome_iff_ne_none, ne_eq, shallowest_eq_none_iff]
  exact ⟨List.exists_mem_of_ne_nil paths, fun ⟨path, hpath⟩ => List.ne_nil_of_mem hpath⟩

theorem isSome_resolve_iff :
    (resolve paths target).isSome = true ↔ LeadsSomewhere paths target := by
  simp only [resolve, LeadsSomewhere, List.contains_iff_mem]
  split
  · next hexact => exact iff_of_true rfl (.inl hexact)
  · next hexact =>
    rw [or_iff_right hexact]
    split
    · next hending => exact iff_of_true rfl (.inl hending)
    · next hending =>
      rw [or_iff_right hending]
      split
      · next hslash => exact iff_of_false (by simp) fun h => h.1 hslash
      · next hslash => simp [isSome_shallowest_iff, hslash]

/-- A path without white space around it and slashes before it leads to itself. -/
theorem resolve_of_mem (hplain : plainTarget target = target.toList) (h : target ∈ paths) :
    resolve paths target = some target := by
  rw [resolve, hplain, String.ofList_toList, if_pos (List.contains_iff_mem.2 h)]

/-! ## One path more -/

/-- The paths that are there later are those of before and perhaps one more, both in order. -/
structure Grows (paths paths' : List String) (q : String) : Prop where
  before : Order.Increasing compare paths
  after : Order.Increasing compare paths'
  subset : paths ⊆ paths'
  only : ∀ path ∈ paths', path = q ∨ path ∈ paths

theorem Grows.filter (h : Grows paths paths' q) (p : String → Bool) :
    Grows (paths.filter p) (paths'.filter p) q where
  before := h.before.filter p
  after := h.after.filter p
  subset := List.filter_subset p h.subset
  only path hpath := by
    obtain ⟨hmem, hp⟩ := List.mem_filter.1 hpath
    exact (h.only path hmem).imp_right fun hold => List.mem_filter.2 ⟨hold, hp⟩

theorem Grows.shallowest (h : Grows paths paths' q) :
    shallowest paths' = shallowest paths ∨ shallowest paths' = some q := by
  cases hfound : Vault.shallowest paths' with
  | none =>
    have hnil := shallowest_eq_none_iff.1 hfound
    rw [hnil] at h
    rw [List.subset_nil.1 h.subset]
    exact .inl rfl
  | some path =>
    have hshallowest := (shallowest_eq_some_iff h.after).1 hfound
    obtain rfl | hold := h.only path hshallowest.mem
    · exact .inr rfl
    · refine .inl ((shallowest_eq_some_iff h.before).2 ⟨hold, fun other hother => ?_⟩).symm
      exact hshallowest.least other (h.subset hother)

theorem Grows.contains (h : Grows paths paths' q) (path : String) :
    paths'.contains path = paths.contains path ∨ path = q ∧ paths'.contains path = true := by
  rw [Bool.eq_iff_iff]
  simp only [List.contains_iff_mem]
  by_cases hnew : path ∈ paths'
  · exact (h.only path hnew).symm.imp (iff_of_true hnew) fun hq => ⟨hq, hnew⟩
  · exact .inl (iff_of_false hnew fun hold => hnew (h.subset hold))

/-- One path more changes what a target leads to only if the target now leads there. -/
theorem Grows.resolve (h : Grows paths paths' q) (target : String) :
    resolve paths' target = resolve paths target ∨ resolve paths' target = some q := by
  simp only [Vault.resolve]
  obtain hexact | ⟨rfl, hexact⟩ := h.contains (String.ofList (plainTarget target))
  · rw [hexact]
    split
    · exact .inl rfl
    · obtain hending | ⟨rfl, hending⟩ :=
        h.contains (String.ofList (withEnding (plainTarget target)))
      · rw [hending]
        split
        · exact .inl rfl
        · split
          · exact .inl rfl
          · exact (h.filter _).shallowest
      · rw [if_pos hending]
        exact .inr rfl
  · rw [if_pos hexact]
    exact .inr rfl

end NoteSearch.Vault

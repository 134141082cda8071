/-!
# Values under keys

Lists of keys with their values, each key in the place where it was first put.
-/
namespace NoteSearch.Keyed

variable {κ ν : Type} [BEq κ]

/-- Put a value under a key, in the place of one that is there already. -/
def put (entries : List (κ × ν)) (key : κ) (value : ν) : List (κ × ν) :=
  if (entries.lookup key).isSome then
    entries.map fun (k, v) => if k == key then (k, value) else (k, v)
  else entries ++ [(key, value)]

/-- Take away what is under a key. -/
def erase (entries : List (κ × ν)) (key : κ) : List (κ × ν) := entries.filter (·.1 != key)

/-- The keys, in their order. -/
def keys (entries : List (κ × ν)) : List κ := entries.map (·.1)

variable {entries : List (κ × ν)} {key : κ}

theorem put_of_new (h : entries.lookup key = none) (value : ν) :
    put entries key value = entries ++ [(key, value)] := by
  simp [put, h]

theorem keys_put (entries : List (κ × ν)) (key : κ) (value : ν) :
    keys (put entries key value) =
      if (entries.lookup key).isSome then keys entries else keys entries ++ [key] := by
  rw [put]
  split
  · rw [keys, List.map_map]
    refine List.map_congr_left fun entry _ => ?_
    dsimp only [Function.comp_apply]
    split <;> rfl
  · rw [keys, List.map_append]
    rfl

theorem keys_erase (entries : List (κ × ν)) (key : κ) :
    keys (erase entries key) = (keys entries).filter (· != key) := by
  rw [keys, keys, erase, List.filter_map]
  rfl

variable [LawfulBEq κ]

theorem mem_keys_iff : key ∈ keys entries ↔ (entries.lookup key).isSome = true := by
  induction entries with
  | nil => simp [keys]
  | cons entry entries ih =>
    rw [keys, List.map_cons, List.mem_cons, List.lookup_cons]
    by_cases hkey : key = entry.1
    · simp [hkey]
    · rw [beq_eq_false_iff_ne.2 hkey, or_iff_right hkey]
      exact ih

theorem mem_of_lookup {value : ν} (h : entries.lookup key = some value) :
    (key, value) ∈ entries := by
  induction entries with
  | nil => cases h
  | cons entry entries ih =>
    rw [List.lookup_cons] at h
    by_cases hkey : key = entry.1
    · subst hkey
      rw [beq_self_eq_true] at h
      rw [← Option.some.inj h]
      exact List.mem_cons_self
    · rw [beq_eq_false_iff_ne.2 hkey] at h
      exact List.mem_cons_of_mem entry (ih h)

/-- Where no key comes twice, whatever is listed is found. -/
theorem lookup_eq_some_iff (h : (keys entries).Nodup) {value : ν} :
    entries.lookup key = some value ↔ (key, value) ∈ entries := by
  refine ⟨mem_of_lookup, fun hmem => ?_⟩
  induction entries with
  | nil => cases hmem
  | cons entry entries ih =>
    obtain ⟨hfirst, hrest⟩ := List.nodup_cons.1 h
    rw [List.lookup_cons]
    obtain rfl | hmem := List.mem_cons.1 hmem
    · rw [beq_self_eq_true]
    · have hlater : key ∈ keys entries := List.mem_map_of_mem hmem
      have hkey : key ≠ entry.1 := by
        rintro rfl
        exact hfirst hlater
      rw [beq_eq_false_iff_ne.2 hkey]
      exact ih hrest hmem

theorem nodup_keys_put (h : (keys entries).Nodup) (key : κ) (value : ν) :
    (keys (put entries key value)).Nodup := by
  rw [keys_put]
  split
  · exact h
  · next hnew =>
    refine List.nodup_append.2 ⟨h, List.pairwise_singleton _ key, fun k hk k' hk' heq => hnew ?_⟩
    rw [List.mem_singleton.1 hk'] at heq
    exact mem_keys_iff.1 (heq ▸ hk)

theorem lookup_replaced (entries : List (κ × ν)) (key : κ) (value : ν) (k : κ) :
    (entries.map fun (k, v) => if k == key then (k, value) else (k, v)).lookup k =
      if k == key then (entries.lookup key).map fun _ => value else entries.lookup k := by
  induction entries with
  | nil => simp
  | cons entry entries ih =>
    obtain ⟨first, v⟩ := entry
    rw [List.map_cons]
    by_cases hkey : k = key
    · subst hkey
      by_cases hfirst : k = first
      · simp [hfirst]
      · simpa [List.lookup_cons, beq_eq_false_iff_ne.2 hfirst,
          beq_eq_false_iff_ne.2 (Ne.symm hfirst)] using ih
    · rw [beq_eq_false_iff_ne.2 hkey] at ih ⊢
      by_cases hkf : k = first
      · subst hkf
        simp [hkey]
      · by_cases hfirst : first = key
        · simpa [hfirst, List.lookup_cons, beq_eq_false_iff_ne.2 hkey] using ih
        · simpa [hfirst, List.lookup_cons, beq_eq_false_iff_ne.2 hkf] using ih

/-- Under the key is what was put there, and under the others what was there before. -/
theorem lookup_put (entries : List (κ × ν)) (key : κ) (value : ν) (k : κ) :
    (put entries key value).lookup k = if k == key then some value else entries.lookup k := by
  rw [put]
  split
  · next hthere =>
    obtain ⟨old, hold⟩ := Option.isSome_iff_exists.1 hthere
    rw [lookup_replaced, hold, Option.map_some]
  · next hnone =>
    rw [Bool.not_eq_true, Option.isSome_eq_false_iff, Option.isNone_iff_eq_none] at hnone
    by_cases hkey : k = key
    · simp [hkey, List.lookup_append, hnone]
    · simp [List.lookup_append, List.lookup_cons, beq_eq_false_iff_ne.2 hkey]

theorem lookup_last (h : entries.lookup key = none) (value : ν) :
    (entries ++ [(key, value)]).lookup key = some value := by
  simp [List.lookup_append, h]

/-- A value that was put last is replaced where it is. -/
theorem put_last (h : entries.lookup key = none) (old value : ν) :
    put (entries ++ [(key, old)]) key value = entries ++ [(key, value)] := by
  have hother : ∀ entry ∈ entries, entry.1 ≠ key := fun entry hmem heq => by
    simpa [heq] using List.lookup_eq_none_iff.1 h entry hmem
  rw [put, lookup_last h, Option.isSome_some, if_pos rfl, List.map_append,
    List.map_congr_left (g := id) fun entry hmem => by simp [hother entry hmem], List.map_id]
  simp

/-- Under the key is nothing any more, and under the others what was there before. -/
theorem lookup_erase (entries : List (κ × ν)) (key k : κ) :
    (erase entries key).lookup k = if k == key then none else entries.lookup k := by
  induction entries with
  | nil => simp [erase]
  | cons entry entries ih =>
    obtain ⟨first, v⟩ := entry
    rw [erase] at ih
    rw [erase, List.filter_cons]
    by_cases hkey : k = key
    · subst hkey
      by_cases hfirst : k = first
      · simpa [hfirst] using ih
      · simpa [hfirst, Ne.symm hfirst, List.lookup_cons, beq_eq_false_iff_ne.2 hfirst] using ih
    · by_cases hfirst : first = key
      · simpa [hfirst, hkey, List.lookup_cons, beq_eq_false_iff_ne.2 hkey] using ih
      · by_cases hkf : k = first
        · simp [hkf, hfirst]
        · simpa [hfirst, hkey, List.lookup_cons, beq_eq_false_iff_ne.2 hkf] using ih

end NoteSearch.Keyed

import NoteSearch.Order.Sorted

/-!
# What a list kept in order holds

Elements that are put in one after the other stand in strictly increasing order. If no two of them
compare equal none is lost, so the list is a rearrangement of what was put in.
-/
namespace NoteSearch.Order

variable {α : Type} {cmp : α → α → Ordering}

/-- The elements of the list stand in strictly increasing order. -/
def Increasing (cmp : α → α → Ordering) (l : List α) : Prop := l.Pairwise (cmp · · = .lt)

theorem mem_insert {a x : α} {l : List α} (h : x ∈ insert cmp a l) : x = a ∨ x ∈ l := by
  induction l with
  | nil =>
    simp only [insert, List.mem_singleton] at h
    exact .inl h
  | cons b rest ih =>
    simp only [insert] at h
    split at h
    · simpa using h
    · obtain hx | hx := List.mem_cons.1 h
      · exact .inl hx
      · exact .inr (List.mem_cons_of_mem b hx)
    · obtain hx | hx := List.mem_cons.1 h
      · exact .inr (hx ▸ List.mem_cons_self)
      · exact (ih hx).imp_right (List.mem_cons_of_mem b)

/-- Where only equal elements compare equal, an element that is put in displaces nothing else. -/
theorem mem_insert_iff [Std.LawfulEqCmp cmp] {a x : α} {l : List α} :
    x ∈ insert cmp a l ↔ x = a ∨ x ∈ l := by
  refine ⟨mem_insert, fun h => ?_⟩
  induction l with
  | nil => simpa [insert] using h
  | cons b rest ih =>
    simp only [insert]
    split
    · exact List.mem_cons.2 h
    · next heq =>
      rw [Std.LawfulEqCmp.eq_of_compare heq] at h ⊢
      simpa using h
    · rw [List.mem_cons] at h ⊢
      obtain rfl | rfl | hrest := h
      · exact .inr (ih (.inl rfl))
      · exact .inl rfl
      · exact .inr (ih (.inr hrest))

theorem mem_insertAll_iff [Std.LawfulEqCmp cmp] {x : α} {as l : List α} :
    x ∈ as.foldl (fun sorted a => insert cmp a sorted) l ↔ x ∈ as ∨ x ∈ l := by
  induction as generalizing l with
  | nil => simp
  | cons a as ih =>
    rw [List.foldl_cons, ih, mem_insert_iff, List.mem_cons, or_left_comm, or_assoc]

theorem mem_ofList_iff [Std.LawfulEqCmp cmp] {x : α} {as : List α} :
    x ∈ ofList cmp as ↔ x ∈ as := by
  rw [ofList, mem_insertAll_iff]
  simp

theorem increasing_insert [Std.TransCmp cmp] (a : α) {l : List α} (h : Increasing cmp l) :
    Increasing cmp (insert cmp a l) := by
  induction l with
  | nil => exact List.pairwise_singleton _ a
  | cons b rest ih =>
    obtain ⟨hb, hrest⟩ := List.pairwise_cons.1 h
    simp only [insert]
    split
    · next hlt =>
      refine List.pairwise_cons.2 ⟨fun c hc => ?_, h⟩
      obtain rfl | hc := List.mem_cons.1 hc
      · exact hlt
      · exact Std.TransCmp.lt_trans hlt (hb c hc)
    · next heq =>
      exact List.pairwise_cons.2 ⟨fun c hc => Std.TransCmp.lt_of_eq_of_lt heq (hb c hc), hrest⟩
    · next hgt =>
      refine List.pairwise_cons.2 ⟨fun c hc => ?_, ih hrest⟩
      obtain rfl | hc := mem_insert hc
      · exact Std.OrientedCmp.lt_of_gt hgt
      · exact hb c hc

theorem insert_perm {a : α} {l : List α} (h : ∀ b ∈ l, cmp a b ≠ .eq) :
    (insert cmp a l).Perm (a :: l) := by
  induction l with
  | nil => exact .refl _
  | cons b rest ih =>
    simp only [insert]
    split
    · exact .refl _
    · next heq => exact absurd heq (h b List.mem_cons_self)
    · have hrest := ih fun c hc => h c (List.mem_cons_of_mem b hc)
      exact (hrest.cons b).trans (.swap a b rest)

/-- What is found under a key is the element that was put in, if it has the key. -/
theorem find?_insert (key : α → String) (a : α) (l : List α) (k : String) :
    (insert (compareOn key) a l).find? (key · == k) =
      if key a = k then some a else l.find? (key · == k) := by
  have hhead : ∀ (b : α) (rest : List α), (b :: rest).find? (key · == k) =
      if key b = k then some b else rest.find? (key · == k) := by
    intro b rest
    by_cases hb : key b = k <;> simp [hb]
  induction l with
  | nil => exact hhead a []
  | cons b rest ih =>
    simp only [insert]
    split
    · exact hhead a (b :: rest)
    · next heq =>
      have hsame : key a = key b := Std.LawfulEqOrd.compare_eq_iff_eq.1 heq
      rw [hhead, hhead, ← hsame]
      by_cases ha : key a = k
      · rw [if_pos ha, if_pos ha]
      · rw [if_neg ha, if_neg ha, if_neg ha]
    · next hgt =>
      have hne : key a ≠ key b := by
        intro hsame
        rw [compareOn, hsame, Std.ReflOrd.compare_self] at hgt
        cases hgt
      rw [hhead, hhead, ih]
      by_cases hb : key b = k
      · rw [if_pos hb, if_neg fun ha => hne (ha.trans hb.symm), if_pos hb]
      · rw [if_neg hb, if_neg hb]

theorem increasing_insertAll [Std.TransCmp cmp] (as : List α) {l : List α} (h : Increasing cmp l) :
    Increasing cmp (as.foldl (fun sorted a => insert cmp a sorted) l) := by
  induction as generalizing l with
  | nil => exact h
  | cons a as ih => exact ih (increasing_insert a h)

/-- Whatever is put in, the list stays in order. -/
theorem increasing_ofList [Std.TransCmp cmp] (as : List α) : Increasing cmp (ofList cmp as) :=
  increasing_insertAll as .nil

/-- Nothing is in the list that was not put in. -/
theorem mem_of_mem_ofList {x : α} {as : List α} (h : x ∈ ofList cmp as) : x ∈ as := by
  have hfold : ∀ (as sorted : List α),
      x ∈ as.foldl (fun sorted a => insert cmp a sorted) sorted → x ∈ as ∨ x ∈ sorted := by
    intro as
    induction as with
    | nil => exact fun sorted hx => .inr hx
    | cons a as ih =>
      intro sorted hx
      obtain hx | hx := ih _ hx
      · exact .inl (List.mem_cons_of_mem a hx)
      · obtain rfl | hx := mem_insert hx
        · exact .inl List.mem_cons_self
        · exact .inr hx
  exact (hfold as [] h).resolve_right (by simp)

/-- What is found under a key is the last element that was put in under it. -/
theorem find?_ofList (key : α → String) (as : List α) (k : String) :
    (ofList (compareOn key) as).find? (key · == k) = as.reverse.find? (key · == k) := by
  have hfold : ∀ as sorted : List α,
      (as.foldl (fun sorted a => insert (compareOn key) a sorted) sorted).find? (key · == k) =
        (as.reverse.find? (key · == k)).or (sorted.find? (key · == k)) := by
    intro as
    induction as with
    | nil => exact fun sorted => rfl
    | cons a as ih =>
      intro sorted
      rw [List.foldl_cons, ih, find?_insert, List.reverse_cons, List.find?_append, Option.or_assoc]
      by_cases ha : key a = k <;> simp [ha]
  exact (hfold as []).trans Option.or_none

/-- Of elements none of which compare equal, none is lost. -/
theorem ofList_perm [Std.OrientedCmp cmp] {as : List α} (h : as.Pairwise (cmp · · ≠ .eq)) :
    (ofList cmp as).Perm as := by
  have hfold : ∀ (as sorted : List α), (as ++ sorted).Pairwise (cmp · · ≠ .eq) →
      (as.foldl (fun sorted a => insert cmp a sorted) sorted).Perm (as ++ sorted) := by
    intro as
    induction as with
    | nil => exact fun sorted _ => .refl sorted
    | cons a as ih =>
      intro sorted h
      obtain ⟨ha, htail⟩ := List.pairwise_cons.1 h
      have hperm : (insert cmp a sorted).Perm (a :: sorted) :=
        insert_perm fun b hb => ha b (List.mem_append_right as hb)
      have hmoved : (as ++ insert cmp a sorted).Perm (a :: (as ++ sorted)) :=
        (hperm.append_left as).trans List.perm_middle
      have hsymm : ∀ {x y : α}, cmp x y ≠ .eq → cmp y x ≠ .eq :=
        fun hxy hyx => hxy (Std.OrientedCmp.eq_symm hyx)
      exact (ih _ ((hmoved.pairwise_iff hsymm).2 h)).trans hmoved
  have hall := hfold as [] ((List.append_nil as).symm ▸ h)
  rwa [List.append_nil] at hall

/-- Lists in order that hold the same elements are one. -/
theorem Increasing.eq_of_mem_iff [Std.TransCmp cmp] {as bs : List α} (has : Increasing cmp as)
    (hbs : Increasing cmp bs) (h : ∀ a, a ∈ as ↔ a ∈ bs) : as = bs := by
  have hne : ∀ {a b : α}, cmp a b = .lt → a ≠ b := by
    rintro a _ hlt rfl
    rw [@Std.ReflCmp.compare_self α cmp] at hlt
    cases hlt
  have hperm : as.Perm bs :=
    (List.perm_ext_iff_of_nodup (has.imp hne) (hbs.imp hne)).2 h
  refine hperm.eq_of_pairwise (fun a b _ _ hab hba => ?_) has hbs
  rw [Std.OrientedCmp.gt_of_lt hab] at hba
  cases hba

/-- In which order elements are put in makes no difference, if none of them compare equal. -/
theorem ofList_eq_of_perm [Std.TransCmp cmp] {as bs : List α} (h : as.Pairwise (cmp · · ≠ .eq))
    (hperm : as.Perm bs) : ofList cmp as = ofList cmp bs := by
  have hbs : bs.Pairwise (cmp · · ≠ .eq) :=
    (hperm.pairwise_iff fun hne heq => hne (Std.OrientedCmp.eq_symm heq)).1 h
  have hsame : (ofList cmp as).Perm (ofList cmp bs) :=
    (ofList_perm h).trans (hperm.trans (ofList_perm hbs).symm)
  exact (increasing_ofList as).eq_of_mem_iff (increasing_ofList bs) fun a => hsame.mem_iff

/-- Only equal pairs compare equal. -/
instance : Std.LawfulEqCmp pairs where
  compare_self := by simp [pairs]
  eq_of_compare h := by
    obtain ⟨hfirst, hsecond⟩ := Ordering.then_eq_eq.1 h
    exact Prod.ext (Std.LawfulEqOrd.compare_eq_iff_eq.1 hfirst)
      (Std.LawfulEqOrd.compare_eq_iff_eq.1 hsecond)

/-! ## Elements that are changed -/

variable {β : Type} {cmp' : β → β → Ordering} {g : α → β}

theorem insert_map (h : ∀ a b, cmp' (g a) (g b) = cmp a b) (a : α) (l : List α) :
    insert cmp' (g a) (l.map g) = (insert cmp a l).map g := by
  induction l with
  | nil => rfl
  | cons b rest ih =>
    simp only [List.map_cons, insert, h]
    split
    · rfl
    · rfl
    · rw [ih, List.map_cons]

/-- To change elements before they are put in or afterwards is the same, if it makes no difference
to how they compare. -/
theorem ofList_map (h : ∀ a b, cmp' (g a) (g b) = cmp a b) (as : List α) :
    ofList cmp' (as.map g) = (ofList cmp as).map g := by
  have hfold : ∀ as sorted : List α,
      (as.map g).foldl (fun sorted b => insert cmp' b sorted) (sorted.map g) =
        (as.foldl (fun sorted a => insert cmp a sorted) sorted).map g := by
    intro as
    induction as with
    | nil => exact fun sorted => rfl
    | cons a as ih =>
      intro sorted
      rw [List.map_cons, List.foldl_cons, insert_map h, ih, List.foldl_cons]
  exact hfold as []

end NoteSearch.Order

import NoteSearch.Proofs.Search.Sorting

/-!
# Stable sorting

What a stable sort gives is told by the order and by the places that elements had: elements that
compare equal stay in the order of their places. Only one rearrangement does that, in either
direction of the order; and a sort of what was sorted before breaks its ties by the earlier order.
-/
namespace NoteSearch.Order

variable {α : Type} {cmp first second : α → α → Ordering} {input output output' : List α}
  {placed placed' : List (α × Nat)}

/-- The elements of a list, each with the place it had, rearranged so that they do not decrease, and
those that compare equal as they were. -/
structure Arranges (cmp : α → α → Ordering) (input : List α) (placed : List (α × Nat)) : Prop where
  perm : placed.Perm input.zipIdx
  sorted : placed.Pairwise fun x y => (cmp x.1 y.1).isLE = true
  stable : placed.Pairwise fun x y => cmp x.1 y.1 = .eq → x.2 < y.2

/-- The second list is what a stable sort gives of the first. -/
def IsStableSort (cmp : α → α → Ordering) (input output : List α) : Prop :=
  ∃ placed, Arranges cmp input placed ∧ placed.map Prod.fst = output

theorem arranges_iff : Arranges cmp input placed ↔ placed.Perm input.zipIdx ∧
    placed.Pairwise fun x y => cmp x.1 y.1 = .lt ∨ cmp x.1 y.1 = .eq ∧ x.2 < y.2 := by
  have hpair : ∀ x y : α × Nat, (cmp x.1 y.1 = .lt ∨ cmp x.1 y.1 = .eq ∧ x.2 < y.2) ↔
      (cmp x.1 y.1).isLE = true ∧ (cmp x.1 y.1 = .eq → x.2 < y.2) := by
    intro x y
    cases cmp x.1 y.1 <;> simp
  simp only [hpair, List.pairwise_and_iff]
  exact ⟨fun h => ⟨h.perm, h.sorted, h.stable⟩, fun ⟨hperm, hsorted, hstable⟩ =>
    ⟨hperm, hsorted, hstable⟩⟩

/-- There is only one such rearrangement. -/
theorem Arranges.unique [Std.OrientedCmp cmp] (h : Arranges cmp input placed)
    (h' : Arranges cmp input placed') : placed = placed' := by
  obtain ⟨hperm, hpairs⟩ := arranges_iff.1 h
  obtain ⟨hperm', hpairs'⟩ := arranges_iff.1 h'
  refine (hperm.trans hperm'.symm).eq_of_pairwise (fun x y _ _ hxy hyx => ?_) hpairs hpairs'
  rw [@Std.OrientedCmp.eq_swap _ cmp _ y.1 x.1] at hyx
  obtain hlt | ⟨heq, hplace⟩ := hxy
  · simp [hlt] at hyx
  · have hback : y.2 < x.2 := by simpa [heq] using hyx
    omega

theorem IsStableSort.unique [Std.OrientedCmp cmp] (h : IsStableSort cmp input output)
    (h' : IsStableSort cmp input output') : output = output' := by
  obtain ⟨placed, hplaced, rfl⟩ := h
  obtain ⟨placed', hplaced', rfl⟩ := h'
  rw [hplaced.unique hplaced']

/-- Where nothing is told apart, all stays as it is. -/
theorem arranges_zipIdx (input : List α) : Arranges (fun _ _ => .eq) input input.zipIdx := by
  have hplaces : input.zipIdx.Pairwise fun x y => x.2 < y.2 := by
    rw [← List.pairwise_map, List.zipIdx_map_snd]
    exact List.pairwise_lt_range'
  exact arranges_iff.2 ⟨.refl _, hplaces.imp fun hlt => .inr ⟨rfl, hlt⟩⟩

/-- To sort what is arranged already breaks ties by the earlier arrangement. -/
theorem Arranges.mergeSort [Std.TransCmp second] (h : Arranges first input placed) :
    Arranges (compareLex second first) input
      (placed.mergeSort fun x y => (second x.1 y.1).isLE) := by
  obtain ⟨hperm, hpairs⟩ := arranges_iff.1 h
  have htrans : Std.TransCmp fun x y : α × Nat => second x.1 y.1 := transCmp_on Prod.fst second
  refine arranges_iff.2 ⟨(List.mergeSort_perm _ _).trans hperm, ?_⟩
  refine (pairwise_mergeSort hpairs).imp fun hxy => ?_
  rw [compareLex, Ordering.then_eq_lt, Ordering.then_eq_eq]
  obtain hlt | ⟨heq, hlt | ⟨htie, hplace⟩⟩ := hxy
  · exact .inl (.inl hlt)
  · exact .inl (.inr ⟨heq, hlt⟩)
  · exact .inr ⟨⟨heq, htie⟩, hplace⟩

theorem IsStableSort.mergeSort [Std.TransCmp second] (h : IsStableSort first input output) :
    IsStableSort (compareLex second first) input
      (output.mergeSort fun a b => (second a b).isLE) := by
  obtain ⟨placed, hplaced, rfl⟩ := h
  exact ⟨_, hplaced.mergeSort, List.map_mergeSort fun x _ y _ => rfl⟩

/-- A merge sort is stable. -/
theorem isStableSort_mergeSort [Std.TransCmp cmp] (input : List α) :
    IsStableSort cmp input (input.mergeSort fun a b => (cmp a b).isLE) := by
  have hunsorted : IsStableSort (fun _ _ => .eq) input input :=
    ⟨_, arranges_zipIdx input, List.zipIdx_map_fst ..⟩
  have hcmp : compareLex cmp (fun _ _ => .eq) = cmp :=
    funext fun a => funext fun b => Ordering.then_eq
  have hsorted : IsStableSort (compareLex cmp fun _ _ => .eq) input
      (input.mergeSort fun a b => (cmp a b).isLE) := hunsorted.mergeSort
  rwa [hcmp] at hsorted

/-- What a stable sort gives is in order. -/
theorem IsStableSort.pairwise (h : IsStableSort cmp input output) :
    output.Pairwise fun a b => (cmp a b).isLE = true := by
  obtain ⟨placed, hplaced, rfl⟩ := h
  exact List.pairwise_map.2 hplaced.sorted

end NoteSearch.Order

namespace NoteSearch.Search
open NoteSearch.Order

theorem SortKey.nameOrder_eq_iff {a b : String} : nameOrder a b = .eq ↔ a = b := by
  rw [nameOrder, Ordering.then_eq_eq]
  constructor
  · exact fun h => Std.LawfulEqOrd.compare_eq_iff_eq.1 h.2
  · rintro rfl
    exact ⟨Std.ReflOrd.compare_self, Std.ReflOrd.compare_self⟩

theorem SortChoice.order_eq_iff_of_name {choice : SortChoice} (h : choice.key = .name) (a b : Hit) :
    choice.order a b = .eq ↔ a.title = b.title := by
  obtain ⟨key, reverse⟩ := choice
  obtain rfl : key = .name := h
  cases reverse with
  | false => exact SortKey.nameOrder_eq_iff
  | true => exact SortKey.nameOrder_eq_iff.trans eq_comm

theorem isStableSort_sortHits (choice : Option SortChoice) (hits : List Hit) :
    IsStableSort (choice.getD {}).order hits (sortHits choice hits) :=
  isStableSort_mergeSort hits

theorem isStableSort_sortHits_sortHits (choice later : Option SortChoice) (hits : List Hit) :
    IsStableSort (compareLex (later.getD {}).order (choice.getD {}).order) hits
      (sortHits later (sortHits choice hits)) :=
  (isStableSort_sortHits choice hits).mergeSort

/-- Hits that are sorted are left as they are. -/
theorem sortHits_sortHits (choice : Option SortChoice) (hits : List Hit) :
    sortHits choice (sortHits choice hits) = sortHits choice hits :=
  List.mergeSort_of_pairwise (isStableSort_sortHits choice hits).pairwise

/-- Every choice, and the date of change where there is none, orders hits lawfully in either
direction; by name only hits of one title are tied. Sorting gives the one stable sort by that order.
To sort again changes nothing, and to sort by another choice breaks the ties of that by the first
one. -/
theorem sortHits_eq_iff_isStableSort (choice : Option SortChoice) (hits : List Hit) :
    let s := choice.getD ⟨.modified, false⟩
    (∀ a b, s.order b a = (s.order a b).swap) ∧
    (∀ a b c, (s.order a b).isLE = true → (s.order b c).isLE = true →
      (s.order a c).isLE = true) ∧
    (s.key = .name → ∀ a b, s.order a b = .eq ↔ a.title = b.title) ∧
    (∀ output, output = sortHits choice hits ↔ IsStableSort s.order hits output) ∧
    sortHits choice (sortHits choice hits) = sortHits choice hits ∧
    ∀ (later : Option SortChoice) (output : List Hit),
      output = sortHits later (sortHits choice hits) ↔
        IsStableSort (compareLex (later.getD ⟨.modified, false⟩).order s.order) hits output := by
  intro s
  refine ⟨fun a b => Std.OrientedCmp.eq_swap, isLE_trans, SortChoice.order_eq_iff_of_name,
    fun output => ⟨?_, fun h => h.unique (isStableSort_sortHits choice hits)⟩,
    sortHits_sortHits choice hits,
    fun later output => ⟨?_, fun h => h.unique (isStableSort_sortHits_sortHits choice later hits)⟩⟩
  · rintro rfl
    exact isStableSort_sortHits choice hits
  · rintro rfl
    exact isStableSort_sortHits_sortHits choice later hits

/-- Sorted by name and then by size, both downwards: hits of one size stay in the order of names. -/
theorem sortHits_eq_iff_isStableSort_by_name :
    let hit (title : String) (size : Nat) : Hit := ⟨title, title ++ ".md", size, {}, {}, "", 0⟩
    let hits := [hit "A" 2, hit "b" 1, hit "a" 2]
    let byName : SortChoice := ⟨.name, true⟩
    let bySize : SortChoice := ⟨.size, true⟩
    (byName.order (hit "A" 2) (hit "a" 2) = .eq ↔ "A" = "a") ∧
      [hit "b" 1, hit "a" 2, hit "A" 2] = sortHits (some byName) hits ∧
      [hit "a" 2, hit "A" 2, hit "b" 1] = sortHits (some bySize) (sortHits (some byName) hits) := by
  intro hit hits byName bySize
  obtain ⟨-, -, hname, hsorted, -, hlater⟩ := sortHits_eq_iff_isStableSort (some byName) hits
  refine ⟨hname rfl _ _, (hsorted _).2 ⟨[(hit "b" 1, 1), (hit "a" 2, 2), (hit "A" 2, 0)], ?_, rfl⟩,
    (hlater (some bySize) _).2 ⟨[(hit "a" 2, 2), (hit "A" 2, 0), (hit "b" 1, 1)], ?_, rfl⟩⟩
  · exact ⟨by decide +kernel, by decide +kernel, by decide +kernel⟩
  · exact ⟨by decide +kernel, by decide +kernel, by decide +kernel⟩

end NoteSearch.Search

import NoteSearch.Proofs.Vault.Memory
import NoteSearch.Search.Sorting

/-!
# What sorting does to hits

Every choice orders hits by a transitive comparison. So the sorted hits are the same hits in that
order, and as the sort is stable, those that the choice does not tell apart stay as they came.
-/
namespace NoteSearch.Order

variable {α : Type} {cmp : α → α → Ordering} [Std.TransCmp cmp]

theorem isLE_trans (a b c : α) (hab : (cmp a b).isLE = true) (hbc : (cmp b c).isLE = true) :
    (cmp a c).isLE = true :=
  Std.TransCmp.isLE_trans hab hbc

theorem isLE_total (a b : α) : ((cmp a b).isLE || (cmp b a).isLE) = true := by
  rw [@Std.OrientedCmp.eq_swap _ cmp _ a b]
  cases cmp b a <;> rfl

/-- A stable sort keeps the order of the elements that compare equal. -/
theorem pairwise_mergeSort {R : α → α → Prop} {l : List α} (h : l.Pairwise R) :
    (l.mergeSort fun a b => (cmp a b).isLE).Pairwise fun a b =>
      cmp a b = .lt ∨ cmp a b = .eq ∧ R a b := by
  induction l with
  | nil => simp
  | cons a l ih =>
    obtain ⟨ha, hl⟩ := List.pairwise_cons.1 h
    have htrans := @isLE_trans α cmp _
    have htotal := @isLE_total α cmp _
    obtain ⟨before, after, hsorted, hrest, hbefore⟩ := List.mergeSort_cons htrans htotal a l
    have hle := List.pairwise_mergeSort htrans htotal (a :: l)
    have hparts := ih hl
    rw [hrest, List.pairwise_append] at hparts
    rw [hsorted, List.pairwise_append, List.pairwise_cons] at hle
    obtain ⟨hpb, hpa, hpab⟩ := hparts
    rw [hsorted]
    refine List.pairwise_append.2
      ⟨hpb, List.pairwise_cons.2 ⟨fun b hb => ?_, hpa⟩, fun b hb c hc => ?_⟩
    · -- what stands after the new element was in the list after it
      have hmem : b ∈ l := List.mem_mergeSort.1 (hrest ▸ List.mem_append_right before hb)
      have hab := hle.2.1.1 b hb
      revert hab
      cases cmp a b <;> simp [ha b hmem]
    · obtain rfl | hc := List.mem_cons.1 hc
      · have hgt := hbefore b hb
        refine .inl (Std.OrientedCmp.lt_of_gt ?_)
        revert hgt
        cases cmp c b <;> simp
      · exact hpab b hb c hc

/-- Elements compared by something of theirs are compared as transitively as that is. -/
theorem transCmp_on {β : Type} (f : β → α) (cmp : α → α → Ordering) [Std.TransCmp cmp] :
    Std.TransCmp fun a b => cmp (f a) (f b) where
  eq_swap := Std.OrientedCmp.eq_swap
  isLE_trans hab hbc := Std.TransCmp.isLE_trans hab hbc

end NoteSearch.Order

namespace NoteSearch.Search
open Time

instance : Std.TransCmp Instant.order :=
  inferInstanceAs (Std.TransCmp (compareLex (compareOn Instant.seconds) (compareOn Instant.nanos)))

instance : Std.TransCmp SortKey.nameOrder :=
  inferInstanceAs (Std.TransCmp (compareLex (compareOn Text.lowered) compare))

instance (key : SortKey) : Std.TransCmp key.order := by
  cases key with
  | modified => exact Order.transCmp_on Hit.modified Instant.order
  | name => exact Order.transCmp_on Hit.title SortKey.nameOrder
  | size => exact Order.transCmp_on Hit.size compare
  | backlinks => exact Order.transCmp_on Hit.backlinks compare

instance (choice : SortChoice) : Std.TransCmp choice.order := by
  obtain ⟨key, reverse⟩ := choice
  cases reverse with
  | false => exact inferInstanceAs (Std.TransCmp key.order)
  | true => exact inferInstanceAs (Std.TransCmp fun a b => key.order b a)

theorem sortHits_perm (choice : Option SortChoice) (hits : List Hit) :
    (sortHits choice hits).Perm hits :=
  List.mergeSort_perm hits _

/-- Hits that come in the order of their paths are sorted by the choice first and then, in either
direction of the choice, by their paths. -/
theorem pairwise_sortHits (choice : Option SortChoice) {hits : List Hit}
    (h : hits.Pairwise fun a b => compare a.path b.path = .lt) :
    (sortHits choice hits).Pairwise fun a b =>
      (choice.getD {}).order a b = .lt ∨
        (choice.getD {}).order a b = .eq ∧ compare a.path b.path = .lt :=
  Order.pairwise_mergeSort h

end NoteSearch.Search

import Mathlib.Logic.Function.Iterate
import NoteSearch.Proofs.Session.Ticks

/-!
# What a pager shows

After any number of steps a pager shows as many batches as it took, or all there is; the sum of what
is shown and a batch may be no word, but then it is more than there is. In a session the pager
counts the hits, whatever the user does and however ticks end, so each step shows the next batch of
them.
-/
namespace NoteSearch
open Search

namespace Pager

/-! ## Batches -/

variable {p : Pager} {batch total batches : Nat}

/-- No more than a word is there, so it does not matter where a sum of words stops. -/
theorem shown_advance (h : p.total < Decimal.wordLimit) :
    p.advance.shown = min (p.shown + p.batch) p.total := by
  simp only [advance, Decimal.addWords]
  omega

/-- So many batches are shown of so many items, or all of them. -/
structure Shows (p : Pager) (batch total batches : Nat) : Prop where
  batch_eq : p.batch = max batch 1
  total_eq : p.total = total
  shown_eq : p.shown = min (batches * max batch 1) total

theorem shows_reset (batch total : Nat) : ((ofBatch batch).reset total).Shows batch total 1 := by
  refine ⟨rfl, rfl, ?_⟩
  rw [Nat.one_mul]
  rfl

theorem Shows.shown_advance (h : p.Shows batch total batches) (hword : total < Decimal.wordLimit) :
    p.advance.shown = min (p.shown + max batch 1) total := by
  have htotal : p.total < Decimal.wordLimit := h.total_eq ▸ hword
  rw [Pager.shown_advance htotal, h.batch_eq, h.total_eq]

/-- A step shows something new exactly when something is left. -/
theorem Shows.grows_eq_hasMore (h : p.Shows batch total batches)
    (hword : total < Decimal.wordLimit) : p.grows = p.hasMore := by
  rw [grows, hasMore, h.shown_advance hword, h.total_eq, decide_eq_decide]
  omega

theorem Shows.advance (h : p.Shows batch total batches) (hword : total < Decimal.wordLimit) :
    p.advance.Shows batch total (batches + 1) := by
  refine ⟨h.batch_eq, h.total_eq, ?_⟩
  rw [h.shown_advance hword, h.shown_eq, Nat.succ_mul]
  omega

theorem Shows.shown_eq_total (h : p.Shows batch total batches) (hall : p.hasMore = false) :
    p.shown = total := by
  have hend : total ≤ p.shown := by simpa [hasMore, h.total_eq] using hall
  have hshown := h.shown_eq
  omega

/-- Where all is shown, a step changes nothing, -/
theorem Shows.advance_eq_self (h : p.Shows batch total batches)
    (hword : total < Decimal.wordLimit) (hall : p.hasMore = false) : p.advance = p := by
  have hshown : p.advance.shown = p.shown := by
    rw [h.shown_advance hword, h.shown_eq_total hall]
    omega
  change { p with shown := p.advance.shown } = p
  rw [hshown]

/-- and more batches show the same. -/
theorem Shows.mono (h : p.Shows batch total batches) (hall : p.hasMore = false) {more : Nat}
    (hmore : batches ≤ more) : p.Shows batch total more := by
  have hgrown : batches * max batch 1 ≤ more * max batch 1 := Nat.mul_le_mul_right _ hmore
  have hend := h.shown_eq_total hall
  have hshown := h.shown_eq
  exact ⟨h.batch_eq, h.total_eq, by omega⟩

theorem Shows.iterate (h : p.Shows batch total batches) (hword : total < Decimal.wordLimit)
    (steps : Nat) : (Pager.advance^[steps] p).Shows batch total (batches + steps) := by
  induction steps with
  | zero => exact h
  | succ steps ih =>
    rw [Function.iterate_succ_apply']
    exact ih.advance hword

/-- A number of steps that stops early has found that all is shown. -/
theorem Shows.advanceBy (h : p.Shows batch total batches) (hword : total < Decimal.wordLimit)
    (steps : Nat) : (p.advanceBy steps).Shows batch total (batches + steps) := by
  induction steps generalizing p batches with
  | zero => exact h
  | succ steps ih =>
    rw [Pager.advanceBy, h.grows_eq_hasMore hword]
    cases hmore : p.hasMore with
    | true =>
      rw [← Nat.succ_add_eq_add_succ]
      exact ih (h.advance hword)
    | false =>
      simp only [Bool.false_eq_true, if_false]
      rw [h.advance_eq_self hword hmore]
      exact h.mono hmore (Nat.le_add_right _ _)

/-- Showing all takes as many steps as show something new, and one that does not. -/
theorem exists_advanceAll (p : Pager) :
    ∃ rounds, p.advanceAll = Pager.advance^[rounds + 1] p ∧
      (∀ round < rounds, (Pager.advance^[round] p).grows = true) ∧
      (Pager.advance^[rounds] p).grows = false := by
  induction p using Pager.advanceAll.induct with
  | case1 p hgrows ih =>
    obtain ⟨rounds, hall, hearlier, hlast⟩ := ih
    refine ⟨rounds + 1, ?_, ?_, hlast⟩
    · rw [Pager.advanceAll, if_pos hgrows, hall]
      rfl
    · intro round hround
      cases round with
      | zero => exact hgrows
      | succ round => exact hearlier round (by omega)
  | case2 p hends =>
    refine ⟨0, ?_, by simp, by simpa using hends⟩
    rw [Pager.advanceAll, if_neg hends]
    rfl

theorem Shows.advanceAll (h : p.Shows batch total batches) (hword : total < Decimal.wordLimit) :
    p.advanceAll.shown = total := by
  obtain ⟨rounds, hall, -, hlast⟩ := p.exists_advanceAll
  have hbefore := h.iterate hword rounds
  rw [hbefore.grows_eq_hasMore hword] at hlast
  rw [hall, Function.iterate_succ_apply', hbefore.advance_eq_self hword hlast]
  exact hbefore.shown_eq_total hlast

end Pager

namespace Session

/-! ## Sessions -/

/-- What a session may become while it is used: its user acts, it takes in other suggestions, it is
told of changes and it is ticked, whatever is answered and whatever arrives meanwhile. -/
inductive IsReached : Session → Prop
  | opened (suggestions : List Filter) : IsReached (ofSuggestions suggestions)
  | acts {s : Session} (h : IsReached s) (action : Action) : IsReached (s.act action)
  | refreshes {s : Session} (h : IsReached s) (suggestions : List Filter) :
      IsReached (s.withSuggestions suggestions)
  | hears {s : Session} (h : IsReached s) : IsReached s.notice
  | ticks {s : Session} (h : IsReached s) (offered : List Filter) (backend : Backend)
      (course : Course) : IsReached (s.tick offered backend course).2

/-- Paging has just begun, by batches of this size. -/
def IsFresh (s : Session) (batch : Nat) : Prop :=
  s.pager = (Pager.ofBatch batch).reset s.hits.length

/-- The pager counts the hits, and shows some batches of them. -/
structure IsPaged (s : Session) : Prop where
  batch : 0 < s.pager.batch
  total : s.pager.total = s.hits.length
  shown : s.pager.shown ≤ s.hits.length
  batches : s.hits.length < Decimal.wordLimit →
    ∃ steps, s.pager.Shows s.pager.batch s.hits.length (steps + 1)

variable {s t : Session} {batch : Nat}

/-- Where a pager starts over, it is as good as new. -/
theorem isPaged_of_reset {p : Pager} (hbatch : 0 < p.batch)
    (h : s.pager = p.reset s.hits.length) : s.IsPaged := by
  have hnew : p.reset s.hits.length = (Pager.ofBatch p.batch).reset s.hits.length := by
    rw [Pager.ofBatch, Nat.max_eq_left hbatch]
    rfl
  refine ⟨?_, ?_, ?_, fun _ => ⟨0, ?_⟩⟩ <;> rw [h]
  · exact hbatch
  · rfl
  · exact Nat.min_le_right _ _
  · change (p.reset s.hits.length).Shows p.batch s.hits.length 1
    rw [hnew]
    exact Pager.shows_reset p.batch s.hits.length

theorem IsFresh.isPaged (h : s.IsFresh batch) : s.IsPaged :=
  isPaged_of_reset (Nat.lt_of_lt_of_le Nat.zero_lt_one (Nat.le_max_right batch 1)) h

theorem IsPaged.of_eq (h : s.IsPaged) (hhits : t.hits = s.hits) (hpager : t.pager = s.pager) :
    t.IsPaged := by
  refine ⟨?_, ?_, ?_, ?_⟩ <;> simp only [hhits, hpager]
  · exact h.batch
  · exact h.total
  · exact h.shown
  · exact h.batches

theorem IsPaged.advance (h : s.IsPaged) : s.advance.IsPaged where
  batch := h.batch
  total := h.total
  shown := h.total ▸ Nat.min_le_right _ _
  batches hword := by
    obtain ⟨steps, hshows⟩ := h.batches hword
    exact ⟨steps + 1, hshows.advance hword⟩

theorem fresh_withSettings (s : Session) (settings : Settings) :
    (s.withSettings settings).IsFresh settings.batch := by
  unfold withSettings withDefaultSort
  split <;> rfl

theorem isPaged_act (h : s.IsPaged) (action : Action) : (s.act action).IsPaged := by
  cases action with
  | advance => exact h.advance
  | withBatch batch =>
    have hfresh : (s.withBatch batch).IsFresh batch := rfl
    exact hfresh.isPaged
  | withSettings settings => exact (s.fresh_withSettings settings).isPaged
  | removeFilter index =>
    change ((s.removeFilter index).toOption.getD s).IsPaged
    unfold removeFilter
    cases s.selection.remove index with
    | ok selection => exact h.of_eq rfl rfl
    | error fault => exact h
  | addFilter _ | removeLastFilter | setFilters _ | reverseFilter _ | setSort _ | toggleSort
  | clearSort | withLimit _ | withMaxSuggestions _ => exact h.of_eq rfl rfl

/-- A tick starts paging over for the hits that it finds, or leaves all as it is. -/
theorem pager_tick (s : Session) (offered : List Filter) (backend : Backend) (course : Course) :
    let after := (s.tick offered backend course).2
    after.hits = s.hits ∧ after.pager = s.pager ∨
      after.pager = s.pager.reset after.hits.length := by
  intro after
  by_cases hupdated : ∃ n, (s.tick offered backend course).1 = .ok (.updated n)
  · obtain ⟨n, hn⟩ := hupdated
    obtain ⟨-, hlength, hpager⟩ := applied_tick offered backend course hn
    exact .inr (hlength ▸ hpager)
  · rw [not_exists] at hupdated
    exact .inl (kept_tick offered backend course hupdated)

theorem IsFresh.tick (h : s.IsFresh batch) (offered : List Filter) (backend : Backend)
    (course : Course) : (s.tick offered backend course).2.IsFresh batch := by
  have hpager : s.pager = (Pager.ofBatch batch).reset s.hits.length := h
  obtain ⟨hhits, hkept⟩ | hreset := s.pager_tick offered backend course
  · rw [IsFresh, hhits, hkept, hpager]
  · rw [IsFresh, hreset, hpager]
    rfl

/-- Whatever has happened to a session, its pager counts its hits. -/
theorem IsReached.isPaged (h : s.IsReached) : s.IsPaged := by
  induction h with
  | opened suggestions =>
    have hfresh : (ofSuggestions suggestions).IsFresh Pager.defaultBatch := rfl
    exact hfresh.isPaged
  | acts _ action ih => exact isPaged_act ih action
  | refreshes _ suggestions ih => exact ih.of_eq rfl rfl
  | hears _ ih => exact ih.of_eq rfl rfl
  | @ticks s _ offered backend course ih =>
    obtain ⟨hhits, hkept⟩ | hreset := s.pager_tick offered backend course
    · exact ih.of_eq hhits hkept
    · exact isPaged_of_reset ih.batch hreset

/-- What is shown are the first of the hits, and as many as the pager says. -/
theorem IsPaged.length_window (h : s.IsPaged) : s.window.length = s.pager.shown := by
  rw [window, Pager.window, List.length_take]
  exact Nat.min_eq_left h.shown

/-- One step more shows the hits that come next, one batch of them. -/
theorem IsPaged.window_advance (h : s.IsPaged) (hword : s.hits.length < Decimal.wordLimit) :
    s.advance.window = s.window ++ (s.hits.drop s.pager.shown).take s.pager.batch := by
  have hnext : s.pager.advance.shown = min (s.pager.shown + s.pager.batch) s.hits.length := by
    rw [Pager.shown_advance (h.total ▸ hword), h.total]
  change s.hits.take s.pager.advance.shown =
    s.hits.take s.pager.shown ++ (s.hits.drop s.pager.shown).take s.pager.batch
  rw [hnext, ← List.take_eq_take_min, List.take_add]

end Session
end NoteSearch

import NoteSearch.Decimal.Digits

/-!
# Paging

A pager shows a growing part of a list from its start, one batch at a time. It counts in unsigned
64-bit words, and a sum that is no word counts as the largest one.
-/
namespace NoteSearch

/-- The sum of two words, or the largest word if their sum is larger. -/
def Decimal.addWords (a b : Nat) : Nat := min (a + b) (wordLimit - 1)

/-- How much of a list is shown. -/
structure Pager where
  /-- How many items a batch has, at least one. -/
  batch : Nat
  shown : Nat
  total : Nat
  deriving Repr, DecidableEq

namespace Pager

/-- How many items a batch has unless something else is asked for. -/
def defaultBatch : Nat := 20

/-- A pager over nothing; a batch has at least one item. -/
def ofBatch (batch : Nat) : Pager := ⟨max batch 1, 0, 0⟩

/-- Start over with one batch of so many items. -/
def reset (p : Pager) (total : Nat) : Pager := { p with total, shown := min p.batch total }

/-- Show one batch more. -/
def advance (p : Pager) : Pager :=
  { p with shown := min (Decimal.addWords p.shown p.batch) p.total }

/-- Whether something is left to show. -/
def hasMore (p : Pager) : Bool := p.shown < p.total

/-- Whether one batch more shows something new. -/
def grows (p : Pager) : Bool := p.shown < p.advance.shown

/-- The part of a list that is shown. -/
def window {α : Type} (p : Pager) (items : List α) : List α := items.take p.shown

/-- Show so many batches more, or as many as it takes to find that nothing new is shown. -/
def advanceBy : Nat → Pager → Pager
  | 0, p => p
  | n + 1, p => if p.grows then advanceBy n p.advance else p.advance

/-- Show all, batch by batch, until nothing new is shown. -/
def advanceAll (p : Pager) : Pager :=
  if p.grows then advanceAll p.advance else p.advance
termination_by p.total - p.shown
decreasing_by
  rename_i h
  simp only [grows, decide_eq_true_eq] at h
  simp only [advance] at h ⊢
  omega

end Pager
end NoteSearch

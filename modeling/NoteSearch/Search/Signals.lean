import NoteSearch.Search.Version

/-!
# Signals

What reaches a session from outside: whether its vault has changed, and the version that is wanted.
A notice of a change sets the one and raises the other, also while a run is on its way.
-/
namespace NoteSearch.Search

/-- Whether there was news of the vault, and the version that is wanted. -/
structure Signals where
  changed : Bool := false
  version : Version := {}
  deriving Repr, DecidableEq

namespace Signals

/-- The signals after a notice that the vault has changed. -/
def notice (s : Signals) : Signals := { changed := true, version := s.version.bump }

/-- The signals after as many notices. -/
def notices : Nat → Signals → Signals
  | 0, s => s
  | n + 1, s => notices n s.notice

/-- The signals after something else than the vault has changed. -/
def bump (s : Signals) : Signals := { s with version := s.version.bump }

/-- The signals once the news has been taken in. -/
def settled (s : Signals) : Signals := { s with changed := false }

@[simp] theorem notices_zero (s : Signals) : notices 0 s = s := rfl

@[simp] theorem notices_succ (n : Nat) (s : Signals) : notices (n + 1) s = notices n s.notice := rfl

/-- Any notice leaves the news to be taken in. -/
theorem changed_notices (n : Nat) (s : Signals) :
    (notices n s).changed = (s.changed || decide (0 < n)) := by
  induction n generalizing s with
  | zero => simp
  | succ n ih => simp [ih, notice]

end Signals
end NoteSearch.Search

import NoteSearch.Proofs.Search.Overtaking
import NoteSearch.Proofs.Session.Current

/-!
# What a tick does and does not do

A tick applies the outcome of a whole run or nothing of it, and what it is told meanwhile is not
lost: after any notice the session is dirty. A tick that hears nothing leaves it clean, even if
its run fails.
-/
namespace NoteSearch
open Search

/-- What the run of a tick meets from its ticket to its end. -/
def Search.Course.eventsOfAttempt (course : Course) (backend : Backend) (request : Request) :
    List Event :=
  course.events backend request ++ [.notices course.beforeCommit, .look]

namespace Session

/-! ## The run of a tick -/

theorem ending_attempt (backend : Backend) (course : Course) (request : Request)
    (signals : Signals) :
    let start := Signals.notices course.beforeTicket signals
    (Ending.ofResult (endOf (attempt backend course request) signals).1,
        (endOf (attempt backend course request) signals).2) =
      ending start.version.ticket (course.eventsOfAttempt backend request) start := by
  intro start
  have hfollows : Follows (do
      let hits ← run backend course request start.version.ticket
      arrive course.beforeCommit
      check start.version.ticket
      return hits) start.version.ticket (course.eventsOfAttempt backend request) :=
    (follows_run backend course request).bind fun hits =>
      (follows_arrive course.beforeCommit).bind fun _ => follows_check.bind fun _ =>
        follows_pure hits
  rw [endOf_attempt]
  exact hfollows start

/-- How an attempt ends is told by what its run meets: it is overtaken exactly when the version has
moved on at a look, and of the notices that arrive none is lost. -/
theorem exists_endOf_attempt (backend : Backend) (course : Course) (request : Request)
    (signals : Signals) :
    ∃ result n, endOf (attempt backend course request) signals =
        (result, Signals.notices n signals) ∧
      (Ending.ofResult result = .superseded ↔
        ∃ k ∈ heardAtLooks 0 (course.eventsOfAttempt backend request), k % UInt64.size ≠ 0) ∧
      (n = 0 ↔
        course.beforeTicket + heardAtEnd 0 (course.eventsOfAttempt backend request) = 0) := by
  have hending := ending_attempt backend course request signals
  generalize course.eventsOfAttempt backend request = events at hending ⊢
  rcases hend : endOf (attempt backend course request) signals with ⟨result, final⟩
  rw [hend] at hending
  by_cases hseen : ∃ k ∈ heardAtLooks 0 events, k % UInt64.size ≠ 0
  · obtain ⟨n, hpos, hover⟩ :=
      ending_of_seen (Signals.notices course.beforeTicket signals) hseen
    obtain ⟨hresult, rfl⟩ := Prod.mk.inj (hending.trans hover)
    obtain ⟨k, hk, hmoved⟩ := hseen
    have hheard : k ≤ heardAtEnd 0 events := le_heardAtEnd_of_mem hk
    refine ⟨result, course.beforeTicket + n, by rw [Signals.notices_notices],
      iff_of_true hresult ⟨k, hk, hmoved⟩, ?_⟩
    have hne : k ≠ 0 := fun hzero => hmoved (by rw [hzero, Nat.zero_mod])
    omega
  · have hunseen : ∀ k ∈ heardAtLooks 0 events, k % UInt64.size = 0 := fun k hk =>
      not_not.1 fun hmoved => hseen ⟨k, hk, hmoved⟩
    have hmet := ending_of_unseen (Signals.notices course.beforeTicket signals) hunseen
    obtain ⟨hresult, rfl⟩ := Prod.mk.inj (hending.trans hmet)
    refine ⟨result, course.beforeTicket + heardAtEnd 0 events, by rw [Signals.notices_notices],
      iff_of_false ?_ hseen, Iff.rfl⟩
    change Ending.ofResult result = _ at hresult
    rw [hresult]
    split <;> exact nofun

/-! ## What becomes of the session -/

section
variable (s : Session) (count : Nat) (result : Except Search.Fault (List Hit)) (signals : Signals)

@[simp] theorem selection_ended : (s.ended count (result, signals)).2.selection = s.selection := by
  rcases result with fault | hits
  · cases fault <;> rfl
  · rfl

@[simp] theorem signals_ended :
    (s.ended count (result, signals)).2.signals = Signals.notices count signals := by
  rcases result with fault | hits
  · cases fault <;> rfl
  · rfl

theorem ne_idle_ended : (s.ended count (result, signals)).1 ≠ .ok .idle := by
  rcases result with fault | hits
  · cases fault <;> exact nofun
  · exact nofun

theorem superseded_ended_iff :
    (s.ended count (result, signals)).1 = .ok .superseded ↔
      Ending.ofResult result = .superseded := by
  rcases result with fault | hits
  · cases fault <;> simp [ended, Ending.ofResult]
  · simp [ended, Ending.ofResult]

/-- Only a run that was overtaken is to be done again. -/
theorem stale_ended_iff (hstale : s.stale = true) :
    (s.ended count (result, signals)).2.stale = true ↔ Ending.ofResult result = .superseded := by
  rcases result with fault | hits
  · cases fault <;> simp [ended, Ending.ofResult, hstale]
  · simp [ended, Ending.ofResult]

variable {s count result signals}

theorem eq_of_updated_ended {n : Nat}
    (h : (s.ended count (result, signals)).1 = .ok (.updated n)) :
    ∃ hits, result = .ok hits ∧ n = hits.length ∧
      (s.ended count (result, signals)).2.hits = hits ∧
      (s.ended count (result, signals)).2.pager = s.pager.reset n := by
  rcases result with fault | hits
  · cases fault <;> simp [ended] at h
  · obtain rfl : hits.length = n := by simpa [ended] using h
    exact ⟨hits, rfl, rfl, rfl, rfl⟩

/-- Nothing is applied of a run that does not succeed. -/
theorem kept_ended (h : ∀ n, (s.ended count (result, signals)).1 ≠ .ok (.updated n)) :
    (s.ended count (result, signals)).2.hits = s.hits ∧
      (s.ended count (result, signals)).2.pager = s.pager := by
  rcases result with fault | hits
  · cases fault <;> exact ⟨rfl, rfl⟩
  · exact absurd rfl (h hits.length)

end

/-! ## Ticks -/

section
variable (s : Session) (offered : List Filter)

/-- A tick goes to work exactly when there is something to do. -/
theorem stale_takeNews : (s.takeNews offered).stale = s.isDirty := by
  unfold takeNews isDirty
  cases s.signals.changed <;> simp

theorem signals_takeNews : (s.takeNews offered).signals = s.signals.settled := by
  unfold takeNews
  split
  · rfl
  · next hquiet =>
    rw [Bool.not_eq_true] at hquiet
    rw [Signals.settled, ← hquiet]

theorem hits_takeNews : (s.takeNews offered).hits = s.hits := by
  unfold takeNews
  split <;> rfl

theorem pager_takeNews : (s.takeNews offered).pager = s.pager := by
  unfold takeNews
  split <;> rfl

theorem filters_takeNews :
    (s.takeNews offered).selection.filters = s.selection.filters ∧
      (s.takeNews offered).selection.sort = s.selection.sort := by
  unfold takeNews
  split <;> exact ⟨rfl, rfl⟩

variable {s} (backend : Backend) (course : Course)

theorem tick_of_clean (h : s.isDirty = false) :
    s.tick offered backend course = (.ok .idle, s.takeNews offered) :=
  tick_of_fresh ((stale_takeNews s offered).trans h)

theorem tick_of_dirty (h : s.isDirty = true) :
    s.tick offered backend course = (s.takeNews offered).ended course.afterCommit
      (endOf (attempt backend course s.request) s.signals.settled) := by
  rw [tick_of_stale ((stale_takeNews s offered).trans h), signals_takeNews]

/-- A tick that has something to do ends as its attempt does. -/
theorem exists_tick_of_dirty (h : s.isDirty = true) :
    ∃ result n, s.tick offered backend course =
        (s.takeNews offered).ended course.afterCommit
          (result, Signals.notices n s.signals.settled) ∧
      (Ending.ofResult result = .superseded ↔
        ∃ k ∈ heardAtLooks 0 (course.eventsOfAttempt backend s.request), k % UInt64.size ≠ 0) ∧
      (n = 0 ↔
        course.beforeTicket + heardAtEnd 0 (course.eventsOfAttempt backend s.request) = 0) := by
  obtain ⟨result, n, hend, hlooks, hheard⟩ :=
    exists_endOf_attempt backend course s.request s.signals.settled
  exact ⟨result, n, by rw [tick_of_dirty offered backend course h, hend], hlooks, hheard⟩

theorem idle_tick_iff :
    (s.tick offered backend course).1 = .ok .idle ↔ s.isDirty = false := by
  refine ⟨fun hidle => ?_, fun hclean => by rw [tick_of_clean offered backend course hclean]⟩
  cases hdirty : s.isDirty with
  | false => rfl
  | true =>
    obtain ⟨result, n, htick, -⟩ := exists_tick_of_dirty offered backend course hdirty
    rw [htick] at hidle
    exact absurd hidle (ne_idle_ended _ _ _ _)

/-- A tick is superseded exactly when the version has moved on at a look of its run. -/
theorem superseded_tick_iff (h : s.isDirty = true) :
    (s.tick offered backend course).1 = .ok .superseded ↔
      ∃ k ∈ heardAtLooks 0 (course.eventsOfAttempt backend s.request), k % UInt64.size ≠ 0 := by
  obtain ⟨result, n, htick, hlooks, -⟩ := exists_tick_of_dirty offered backend course h
  rw [htick, superseded_ended_iff, hlooks]

/-- Only after a tick that was superseded is the same to be run again, -/
theorem stale_tick_iff (h : s.isDirty = true) :
    (s.tick offered backend course).2.stale = true ↔
      (s.tick offered backend course).1 = .ok .superseded := by
  obtain ⟨result, n, htick, -⟩ := exists_tick_of_dirty offered backend course h
  rw [htick, superseded_ended_iff, stale_ended_iff]
  exact (stale_takeNews s offered).trans h

/-- and there is news after it exactly when any notice has arrived, wherever it was. -/
theorem changed_tick_iff (h : s.isDirty = true) :
    (s.tick offered backend course).2.signals.changed = true ↔
      0 < course.beforeTicket + heardAtEnd 0 (course.eventsOfAttempt backend s.request)
        + course.afterCommit := by
  obtain ⟨result, n, htick, -, hheard⟩ := exists_tick_of_dirty offered backend course h
  have hsettled : s.signals.settled.changed = false := rfl
  rw [htick, signals_ended, Signals.notices_notices, Signals.changed_notices, hsettled,
    Bool.false_or, decide_eq_true_iff]
  omega

/-- In particular, where fewer notices come than there are versions, the tick is superseded exactly
when any of them has come by a look of the run; and then it leaves the session dirty. -/
theorem superseded_tick_of_few (h : s.isDirty = true)
    (hfew : heardAtEnd 0 (course.eventsOfAttempt backend s.request) < UInt64.size) :
    ((s.tick offered backend course).1 = .ok .superseded ↔
      ∃ k ∈ heardAtLooks 0 (course.eventsOfAttempt backend s.request), 0 < k) ∧
    ((s.tick offered backend course).1 = .ok .superseded →
      (s.tick offered backend course).2.isDirty = true) := by
  refine ⟨(superseded_tick_iff offered backend course h).trans ?_, fun hsuperseded => ?_⟩
  · refine exists_congr fun k => and_congr_right fun hk => ?_
    have hle : k ≤ heardAtEnd 0 (course.eventsOfAttempt backend s.request) :=
      le_heardAtEnd_of_mem hk
    rw [Nat.mod_eq_of_lt (Nat.lt_of_le_of_lt hle hfew), Nat.pos_iff_ne_zero]
  · rw [isDirty, (stale_tick_iff offered backend course h).2 hsuperseded, Bool.true_or]

theorem filters_tick :
    (s.tick offered backend course).2.selection.filters = s.selection.filters ∧
      (s.tick offered backend course).2.selection.sort = s.selection.sort := by
  cases hdirty : s.isDirty with
  | false =>
    rw [tick_of_clean offered backend course hdirty]
    exact filters_takeNews s offered
  | true =>
    obtain ⟨result, n, htick, -⟩ := exists_tick_of_dirty offered backend course hdirty
    rw [htick, selection_ended]
    exact filters_takeNews s offered

/-- Nothing is applied by a tick that does not succeed. -/
theorem kept_tick (h : ∀ n, (s.tick offered backend course).1 ≠ .ok (.updated n)) :
    (s.tick offered backend course).2.hits = s.hits ∧
      (s.tick offered backend course).2.pager = s.pager := by
  rw [← hits_takeNews s offered, ← pager_takeNews s offered]
  cases hdirty : s.isDirty with
  | false =>
    rw [tick_of_clean offered backend course hdirty]
    exact ⟨rfl, rfl⟩
  | true =>
    obtain ⟨result, n, htick, -⟩ := exists_tick_of_dirty offered backend course hdirty
    rw [htick] at h ⊢
    exact kept_ended h

/-- All is applied by a tick that succeeds: its hits are what its run has found. -/
theorem applied_tick {n : Nat} (h : (s.tick offered backend course).1 = .ok (.updated n)) :
    let start := Signals.notices course.beforeTicket s.signals.settled
    let after := (s.tick offered backend course).2
    (∃ signals, Yields (run backend course s.request start.version.ticket) start after.hits
        signals) ∧
      n = after.hits.length ∧ after.pager = s.pager.reset n := by
  intro start after
  have hdirty : s.isDirty = true := by
    rw [← Bool.not_eq_false, ← idle_tick_iff offered backend course, h]
    exact nofun
  have htick := tick_of_dirty offered backend course hdirty
  rcases hend : endOf (attempt backend course s.request) s.signals.settled with ⟨result, final⟩
  rw [hend] at htick
  rw [htick] at h
  obtain ⟨hits, rfl, hlength, hhits, hpager⟩ := eq_of_updated_ended h
  rw [← htick] at hhits hpager
  rw [pager_takeNews] at hpager
  have hafter : after.hits = hits := hhits
  rw [hafter]
  exact ⟨yields_run_of_attempt hend, hlength, hpager⟩

/-- After a quiet tick there is nothing to do, whether its run has succeeded or failed. -/
theorem clean_tick
    (h : course.beforeTicket + heardAtEnd 0 (course.eventsOfAttempt backend s.request)
      + course.afterCommit = 0) :
    (s.tick offered backend course).1 ≠ .ok .superseded ∧
      (s.tick offered backend course).2.stale = false ∧
      (s.tick offered backend course).2.signals.changed = false := by
  cases hdirty : s.isDirty with
  | false =>
    rw [tick_of_clean offered backend course hdirty, signals_takeNews, stale_takeNews]
    exact ⟨nofun, hdirty, rfl⟩
  | true =>
    have hsuperseded : (s.tick offered backend course).1 ≠ .ok .superseded := by
      rw [Ne, superseded_tick_iff offered backend course hdirty]
      rintro ⟨k, hk, hmoved⟩
      have hheard : k ≤ heardAtEnd 0 (course.eventsOfAttempt backend s.request) :=
        le_heardAtEnd_of_mem hk
      obtain rfl : k = 0 := by omega
      exact hmoved (Nat.zero_mod _)
    refine ⟨hsuperseded, ?_, ?_⟩
    · rwa [← Bool.not_eq_true, stale_tick_iff offered backend course hdirty]
    · rw [← Bool.not_eq_true, changed_tick_iff offered backend course hdirty]
      omega

end

/-- A tick leaves the filters and the order as they are, and is idle exactly when there is nothing
to do. It applies nothing, or all that a whole run has found, to be shown from the start. If notices
have come by a look of the run, the session is dirty afterwards, and the tick is superseded, unless
at each look there were just so many of them that the version, which is a word, has come round. The
session is dirty after any other notice, too. After a tick without notices it is clean, even if the
run has failed, and the next tick is idle. -/
theorem tick_all_or_nothing (s : Session) (offered : List Filter) (backend : Backend)
    (course : Course) :
    let outcome := (s.tick offered backend course).1
    let after := (s.tick offered backend course).2
    let start := Signals.notices course.beforeTicket s.signals.settled
    let heard := heardAtEnd 0 (course.eventsOfAttempt backend s.request)
    let heardThen := heardAtLooks 0 (course.eventsOfAttempt backend s.request)
    (after.selection.filters = s.selection.filters ∧ after.selection.sort = s.selection.sort) ∧
    (outcome = .ok .idle ↔ s.isDirty = false) ∧
    ((∀ n, outcome ≠ .ok (.updated n)) →
      after.hits = s.hits ∧ after.window = s.window ∧ after.pager = s.pager) ∧
    (∀ n, outcome = .ok (.updated n) →
      (∃ signals, Yields (run backend course s.request start.version.ticket) start after.hits
        signals) ∧
      n = after.hits.length ∧ after.window = after.hits.take s.pager.batch ∧
      after.pager = s.pager.reset n) ∧
    (s.isDirty = true → (∃ k ∈ heardThen, 0 < k) →
      after.isDirty = true ∧
      (outcome = .ok .superseded ↔ ∃ k ∈ heardThen, k % UInt64.size ≠ 0)) ∧
    (s.isDirty = true → 0 < course.beforeTicket + heard + course.afterCommit →
      after.isDirty = true) ∧
    (course.beforeTicket + heard + course.afterCommit = 0 →
      outcome ≠ .ok .superseded ∧ after.stale = false ∧ after.signals.changed = false ∧
      ∀ offered backend course, (after.tick offered backend course).1 = .ok .idle) := by
  intro outcome after start heard heardThen
  have hnews : s.isDirty = true → 0 < course.beforeTicket + heard + course.afterCommit →
      after.isDirty = true := by
    intro hdirty hpos
    have hchanged : after.signals.changed = true :=
      (changed_tick_iff offered backend course hdirty).2 hpos
    rw [isDirty, hchanged, Bool.or_true]
  refine ⟨filters_tick offered backend course, idle_tick_iff offered backend course, ?_, ?_, ?_,
    hnews, ?_⟩
  · intro hkept
    obtain ⟨hhits, hpager⟩ := kept_tick offered backend course hkept
    exact ⟨hhits, by rw [window, hhits, hpager, ← window], hpager⟩
  · intro n hupdated
    obtain ⟨hrun, hlength, hpager⟩ := applied_tick offered backend course hupdated
    refine ⟨hrun, hlength, ?_, hpager⟩
    rw [window, hpager, hlength]
    exact List.take_eq_take_min.symm
  · rintro hdirty ⟨k, hk, hpos⟩
    have hheard : k ≤ heard := le_heardAtEnd_of_mem hk
    exact ⟨hnews hdirty (by omega), superseded_tick_iff offered backend course hdirty⟩
  · intro hquiet
    obtain ⟨hsuperseded, hstale, hchanged⟩ := clean_tick offered backend course hquiet
    refine ⟨hsuperseded, hstale, hchanged, fun offered backend course => ?_⟩
    rw [idle_tick_iff, isDirty, hstale, hchanged]
    rfl

/-- The first tick of a session, which is told of a change while its query is answered. -/
theorem tick_all_or_nothing_overtaken :
    let s := ofSuggestions []
    let backend : Backend := { available := true, answer := fun _ => .ok [] }
    let course : Course := { duringQuery := 1, arrivals := fun _ => [] }
    s.isDirty = true ∧ (s.tick [] backend course).1 = .ok .superseded ∧
      (s.tick [] backend course).2.isDirty = true := by
  intro s backend course
  have hdirty : s.isDirty = true := rfl
  have hheard : heardAtLooks 0 (course.eventsOfAttempt backend s.request) = [0, 1, 1, 1] := rfl
  obtain ⟨-, -, -, -, htold, -, -⟩ := tick_all_or_nothing s [] backend course
  rw [hheard] at htold
  obtain ⟨hafter, hsuperseded⟩ := htold hdirty ⟨1, by decide, by decide⟩
  exact ⟨hdirty, hsuperseded.2 ⟨1, by decide, by decide⟩, hafter⟩

end Session
end NoteSearch

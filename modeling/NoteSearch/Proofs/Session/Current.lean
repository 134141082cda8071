import NoteSearch.Proofs.Search.Run
import NoteSearch.Settings.Basic

/-!
# When a session shows what is there

A session is current if it can be told from its flags that what it shows is up to date: without
news its suggestions are those of the vault, and if it is clean after a run that succeeded,
its hits are what its request finds. Whatever a user does keeps a session current, and so does
a tick, however it ends.
-/
namespace NoteSearch
open Search

/-! ## Suggestions are kept -/

namespace Selection

@[simp] theorem suggestions_add (s : Selection) (f : Filter) :
    (s.add f).suggestions = s.suggestions := by
  unfold add
  split <;> rfl

@[simp] theorem suggestions_setFilters (s : Selection) (filters : List Filter) :
    (s.setFilters filters).suggestions = s.suggestions := by
  have hfold : ∀ (filters : List Filter) (s : Selection),
      (filters.foldl add s).suggestions = s.suggestions := by
    intro filters
    induction filters with
    | nil => exact fun s => rfl
    | cons f filters ih => exact fun s => (ih (s.add f)).trans (suggestions_add s f)
  exact hfold filters _

@[simp] theorem suggestions_reverse (s : Selection) (f : Filter) :
    (s.reverse f).suggestions = s.suggestions := by
  unfold reverse
  split
  · rfl
  · split <;> rfl

theorem suggestions_remove {s t : Selection} {index : Nat} (h : s.remove index = .ok t) :
    t.suggestions = s.suggestions := by
  unfold remove at h
  split at h
  · cases h
    rfl
  · cases h

end Selection

namespace Session

/-! ## What a user does -/

/-- What a user may do with a session, apart from ticks and the taking in of suggestions. -/
inductive Action where
  | addFilter (f : Filter)
  | removeFilter (index : Nat)
  | removeLastFilter
  | setFilters (filters : List Filter)
  | reverseFilter (f : Filter)
  | setSort (sort : Option SortChoice)
  | toggleSort
  | clearSort
  | advance
  | withBatch (batch : Nat)
  | withLimit (limit : Nat)
  | withMaxSuggestions (max : Nat)
  | withSettings (settings : Settings)

/-- The session after an action; one that fails leaves it as it is. -/
def act (s : Session) : Action → Session
  | .addFilter f => s.addFilter f
  | .removeFilter index => (s.removeFilter index).toOption.getD s
  | .removeLastFilter => s.removeLastFilter
  | .setFilters filters => s.setFilters filters
  | .reverseFilter f => s.reverseFilter f
  | .setSort sort => s.setSort sort
  | .toggleSort => s.toggleSort
  | .clearSort => s.clearSort
  | .advance => s.advance
  | .withBatch batch => s.withBatch batch
  | .withLimit limit => s.withLimit limit
  | .withMaxSuggestions max => s.withMaxSuggestions max
  | .withSettings settings => s.withSettings settings

/-- The session has changed in nothing that a search or its answer depends on, or it is stale. In
no case has it heard news or taken in suggestions. -/
structure Tended (s t : Session) : Prop where
  changed : t.signals.changed = s.signals.changed
  suggestions : t.selection.suggestions = s.selection.suggestions
  kept : t.stale = true ∨ t.stale = s.stale ∧ t.selection = s.selection ∧ t.hits = s.hits

theorem Tended.refl (s : Session) : s.Tended s := ⟨rfl, rfl, .inr ⟨rfl, rfl, rfl⟩⟩

theorem tended_withSelection (s : Session) {selection : Selection}
    (h : selection.suggestions = s.selection.suggestions) :
    s.Tended (s.withSelection selection) :=
  ⟨rfl, h, .inl rfl⟩

theorem tended_withSettings (s : Session) (settings : Settings) :
    s.Tended (s.withSettings settings) := by
  unfold withSettings withDefaultSort
  split
  · exact ⟨rfl, rfl, .inl rfl⟩
  · exact ⟨rfl, rfl, .inr ⟨rfl, rfl, rfl⟩⟩

theorem tended_act (s : Session) (action : Action) : s.Tended (s.act action) := by
  cases action with
  | addFilter f => exact s.tended_withSelection (s.selection.suggestions_add f)
  | removeFilter index =>
    change s.Tended ((s.removeFilter index).toOption.getD s)
    unfold removeFilter
    cases hremove : s.selection.remove index with
    | ok selection => exact s.tended_withSelection (Selection.suggestions_remove hremove)
    | error fault => exact .refl s
  | removeLastFilter => exact s.tended_withSelection rfl
  | setFilters filters => exact s.tended_withSelection (s.selection.suggestions_setFilters filters)
  | reverseFilter f => exact s.tended_withSelection (s.selection.suggestions_reverse f)
  | setSort sort => exact s.tended_withSelection rfl
  | toggleSort => exact s.tended_withSelection rfl
  | clearSort => exact s.tended_withSelection rfl
  | advance => exact ⟨rfl, rfl, .inr ⟨rfl, rfl, rfl⟩⟩
  | withBatch batch => exact ⟨rfl, rfl, .inr ⟨rfl, rfl, rfl⟩⟩
  | withLimit limit => exact ⟨rfl, rfl, .inr ⟨rfl, rfl, rfl⟩⟩
  | withMaxSuggestions max => exact ⟨rfl, rfl, .inr ⟨rfl, rfl, rfl⟩⟩
  | withSettings settings => exact s.tended_withSettings settings

/-! ## Currency -/

/-- What the ticks of a session came to, of which only those count that had something to do. -/
abbrev Last := Option (Except Fault Outcome)

/-- What the last tick came to, after one more. -/
def lastAfter (last : Last) : Except Fault Outcome → Last
  | .ok .idle => last
  | outcome => some outcome

variable {s : Session} {offered : List Filter} {finds : Request → List Hit → Prop} {last : Last}

/-- Unless there is news the suggestions are those that are offered; and unless there is something
to do the hits, if the last run gave them, are what the request finds. -/
structure IsCurrent (s : Session) (offered : List Filter) (finds : Request → List Hit → Prop)
    (last : Last) : Prop where
  suggestions : s.signals.changed = false → s.selection.suggestions = offered
  hits : s.isDirty = false → ∀ n, last = some (.ok (.updated n)) → finds s.request s.hits

/-- News may be about anything, so a session that has heard some is current. -/
theorem isCurrent_of_changed (h : s.signals.changed = true) : s.IsCurrent offered finds last where
  suggestions hquiet := absurd (h.symm.trans hquiet) (by decide)
  hits hclean := by
    rw [isDirty, h, Bool.or_true] at hclean
    cases hclean

theorem isCurrent_ofSuggestions (offered : List Filter) (finds : Request → List Hit → Prop) :
    (ofSuggestions offered).IsCurrent offered finds none where
  suggestions _ := rfl
  hits hclean := absurd hclean (by simp [isDirty, ofSuggestions])

theorem isCurrent_withSuggestions (h : s.IsCurrent offered finds last) :
    (s.withSuggestions offered).IsCurrent offered finds last where
  suggestions _ := rfl
  hits hclean := h.hits hclean

/-- How long bodies are waited for makes no difference to what is found. -/
def IgnoresLimit (finds : Request → List Hit → Prop) : Prop :=
  ∀ (request : Request) (limit : Nat) (hits : List Hit),
    finds request hits → finds { request with limit } hits

theorem Tended.isCurrent {t : Session} (hfinds : IgnoresLimit finds) (htended : s.Tended t)
    (h : s.IsCurrent offered finds last) : t.IsCurrent offered finds last where
  suggestions hquiet := by
    rw [htended.suggestions]
    exact h.suggestions (htended.changed.symm.trans hquiet)
  hits hclean n hlast := by
    obtain ⟨hstale, hchanged⟩ := Bool.or_eq_false_iff.1 hclean
    obtain hdirty | ⟨hkept, hselection, hhits⟩ := htended.kept
    · rw [hstale] at hdirty
      cases hdirty
    · have hbefore : s.isDirty = false := by
        rw [isDirty, ← hkept, ← htended.changed, hstale, hchanged]
        rfl
      have hfound := hfinds _ t.limit _ (h.hits hbefore n hlast)
      rw [hhits, request, hselection]
      exact hfound

/-- The news that a tick takes in leaves a session that has nothing to hear. -/
theorem isCurrent_takeNews (h : s.IsCurrent offered finds last) :
    (s.takeNews offered).IsCurrent offered finds last ∧
      (s.takeNews offered).selection.suggestions = offered ∧
      (s.takeNews offered).signals.changed = false := by
  unfold takeNews
  split
  · refine ⟨⟨fun _ => rfl, fun hclean => ?_⟩, rfl, rfl⟩
    cases hclean
  · next hquiet =>
    rw [Bool.not_eq_true] at hquiet
    exact ⟨h, h.suggestions hquiet, hquiet⟩

/-- An attempt is a run under a ticket for the version that it finds. -/
theorem endOf_attempt (backend : Backend) (course : Course) (request : Request)
    (signals : Signals) :
    let start := Signals.notices course.beforeTicket signals
    endOf (attempt backend course request) signals =
      endOf (do
        let hits ← run backend course request start.version.ticket
        arrive course.beforeCommit
        check start.version.ticket
        return hits) start := by
  intro start
  have harrive : endOf (arrive course.beforeTicket) signals = (.ok (), start) := rfl
  have hget : endOf (get : RunM Signals) start = (.ok start, start) := rfl
  rw [attempt, endOf_bind, harrive]
  dsimp only
  rw [endOf_bind, hget]

/-- What an attempt finds, its run has found. -/
theorem yields_run_of_attempt {backend : Backend} {course : Course} {request : Request}
    {signals signals' : Signals} {hits : List Hit}
    (h : Yields (attempt backend course request) signals hits signals') :
    let start := Signals.notices course.beforeTicket signals
    ∃ after, Yields (run backend course request start.version.ticket) start hits after := by
  intro start
  rw [Yields, endOf_attempt, ← Yields] at h
  obtain ⟨found, after, hrun, h⟩ := yields_bind_iff.1 h
  obtain ⟨_, _, _, h⟩ := yields_bind_iff.1 h
  obtain ⟨_, _, _, h⟩ := yields_bind_iff.1 h
  obtain ⟨rfl, -⟩ := yields_pure_iff.1 h
  exact ⟨after, hrun⟩

theorem request_takeNews (s : Session) (offered : List Filter) :
    (s.takeNews offered).request = s.request := by
  unfold takeNews
  split <;> rfl

/-- What becomes of a session when its run has ended, with the notices that come after that. -/
def ended (s : Session) (notices : Nat) :
    Except Search.Fault (List Hit) × Signals → Except Fault Outcome × Session
  | (.ok hits, signals) =>
    (.ok (.updated hits.length),
      { s with
        hits
        pager := s.pager.reset hits.length
        signals := Signals.notices notices signals
        stale := false })
  | (.error .superseded, signals) =>
    (.ok .superseded, { s with signals := Signals.notices notices signals })
  | (.error fault, signals) =>
    (.error (.search fault), { s with signals := Signals.notices notices signals, stale := false })

variable {backend : Backend} {course : Course}

theorem tick_of_fresh (h : (s.takeNews offered).stale = false) :
    s.tick offered backend course = (.ok .idle, s.takeNews offered) := by
  unfold tick
  simp only [h]
  rfl

theorem tick_of_stale (h : (s.takeNews offered).stale = true) :
    s.tick offered backend course = (s.takeNews offered).ended course.afterCommit
      (endOf (attempt backend course s.request) (s.takeNews offered).signals) := by
  rw [← request_takeNews s offered]
  unfold tick
  generalize s.takeNews offered = t at h ⊢
  obtain ⟨selection, hits, pager, signals, stale, limit, max⟩ := t
  obtain rfl : stale = true := h
  unfold endOf
  simp only [Bool.not_true, Bool.false_eq_true, if_false]
  split
  next result after hend =>
    rw [hend]
    rcases result with fault | found
    · cases fault <;> rfl
    · rfl

/-- A tick keeps a session current, whether it is idle, succeeds, fails or is superseded. -/
theorem isCurrent_tick
    (hfinds : ∀ ticket before hits after,
      Yields (run backend course s.request ticket) before hits after → finds s.request hits)
    (h : s.IsCurrent offered finds last) :
    (s.tick offered backend course).2.IsCurrent offered finds
      (lastAfter last (s.tick offered backend course).1) := by
  obtain ⟨hcurrent, hsuggestions, -⟩ := isCurrent_takeNews h
  cases hstale : (s.takeNews offered).stale with
  | false =>
    rw [tick_of_fresh hstale]
    exact hcurrent
  | true =>
    rw [tick_of_stale hstale]
    rcases hend : endOf (attempt backend course s.request) (s.takeNews offered).signals
      with ⟨fault | hits, signals⟩
    · cases fault with
      | superseded =>
        refine ⟨fun _ => hsuggestions, fun hclean => ?_⟩
        rw [ended, isDirty, hstale] at hclean
        cases hclean
      | unavailable | backend _ | fetch _ _ =>
        exact ⟨fun _ => hsuggestions, fun _ n hlast => nomatch hlast⟩
    · refine ⟨fun _ => hsuggestions, fun _ _ _ => ?_⟩
      obtain ⟨after, hrun⟩ := yields_run_of_attempt hend
      have hfound := hfinds _ _ hits after hrun
      rw [← request_takeNews s offered] at hfound
      exact hfound

end Session
end NoteSearch

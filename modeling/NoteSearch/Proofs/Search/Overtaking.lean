import NoteSearch.Proofs.Search.Run

/-!
# How a run is overtaken

Whether a run comes to its end depends on nothing but the notices that arrive, the points at which
it looks for them, and where it fails. They are told here as a list of events in the order in which
the run meets them. A run does what its events say, so it is overtaken exactly when the version
has moved on at one of its looks.
-/
namespace NoteSearch.Search

/-- What a run meets on its way. -/
inductive Event where
  /-- So many notices arrive. -/
  | notices (count : Nat)
  /-- The run looks whether its ticket is cancelled. -/
  | look
  /-- The run fails. -/
  | failure
  deriving DecidableEq

/-- How a run ends, whatever it finds and why ever it fails. -/
inductive Ending where
  | done
  | superseded
  | failed
  deriving DecidableEq

/-- How a part of a run ends that meets these events, and the signals it leaves. -/
def ending (ticket : Ticket) : List Event → Signals → Ending × Signals
  | [], s => (.done, s)
  | .notices count :: events, s => ending ticket events (Signals.notices count s)
  | .look :: events, s =>
    if ticket.isCancelled s.version then (.superseded, s) else ending ticket events s
  | .failure :: _, s => (.failed, s)

/-- The numbers of notices that have arrived at each look, `heard` of them before. -/
def heardAtLooks (heard : Nat) : List Event → List Nat
  | [] => []
  | .notices count :: events => heardAtLooks (heard + count) events
  | .look :: events => heard :: heardAtLooks heard events
  | .failure :: _ => []

/-- The number of notices that have arrived at the end, `heard` of them before. -/
def heardAtEnd (heard : Nat) : List Event → Nat
  | [] => heard
  | .notices count :: events => heardAtEnd (heard + count) events
  | .look :: events => heardAtEnd heard events
  | .failure :: _ => heard

/-- What a run meets while it waits for as many bodies. -/
def eventsOfReceipt : Nat → List (Nat × Arrival) → List Event
  | 0, _ => []
  | _ + 1, [] => [.look, .failure]
  | n + 1, (notices, .read _ (.ok _)) :: rest => .notices notices :: .look :: eventsOfReceipt n rest
  | _ + 1, (notices, _) :: _ => [.notices notices, .look, .failure]

/-- What a run meets from its ticket to its end. -/
def Course.events (course : Course) (backend : Backend) (request : Request) : List Event :=
  if backend.available then
    [.notices course.beforeQuery, .look, .notices course.duringQuery] ++
      match backend.answer (Query.compile request.filters) with
      | .error _ => [.failure]
      | .ok candidates =>
        [.look] ++
          (if request.needles.isEmpty then []
            else eventsOfReceipt candidates.length (course.arrivals candidates)) ++
          [.notices course.afterReads, .look]
  else [.failure]

/-! ## Runs do what their events say -/

variable {α β : Type} {ticket : Ticket} {events events' : List Event} {s : Signals}

/-- How a result looks from outside. -/
def Ending.ofResult : Except Fault α → Ending
  | .ok _ => .done
  | .error .superseded => .superseded
  | .error _ => .failed

theorem ending_append (ticket : Ticket) (events events' : List Event) (s : Signals) :
    ending ticket (events ++ events') s = match ending ticket events s with
      | (.done, s') => ending ticket events' s'
      | stopped => stopped := by
  induction events generalizing s with
  | nil => rfl
  | cons event events ih =>
    cases event with
    | notices count => exact ih _
    | look =>
      simp only [List.cons_append, ending]
      split
      · rfl
      · exact ih s
    | failure => rfl

/-- A part of a run ends as the events say, under whichever signals it starts. -/
def Follows (x : RunM α) (ticket : Ticket) (events : List Event) : Prop :=
  ∀ s, (Ending.ofResult (endOf x s).1, (endOf x s).2) = ending ticket events s

theorem follows_pure (a : α) : Follows (pure a) ticket [] := fun _ => rfl

theorem follows_arrive (count : Nat) : Follows (arrive count) ticket [.notices count] :=
  fun _ => rfl

theorem follows_check : Follows (check ticket) ticket [.look] := by
  intro s
  simp only [endOf_check, ending]
  split <;> rfl

theorem follows_throw {fault : Fault} (h : fault ≠ .superseded) :
    Follows (throw fault : RunM α) ticket [.failure] := by
  intro s
  cases fault with
  | superseded => exact absurd rfl h
  | unavailable | backend _ | fetch _ _ => rfl

/-- One part after another meets the events of both. -/
theorem Follows.bind {x : RunM α} {f : α → RunM β} (hx : Follows x ticket events)
    (hf : ∀ a, Follows (f a) ticket events') : Follows (x >>= f) ticket (events ++ events') := by
  intro s
  rw [ending_append, ← hx s, endOf_bind]
  rcases endOf x s with ⟨fault | a, s₁⟩
  · cases fault <;> rfl
  · exact hf a s₁

theorem Follows.map {x : RunM α} (f : α → β) (hx : Follows x ticket events) :
    Follows (f <$> x) ticket events := by
  rw [← bind_pure_comp, ← List.append_nil events]
  exact hx.bind fun a => follows_pure (f a)

theorem follows_receive (candidates : List Hit) (needles : List Needle) (limit : Nat) (n : Nat)
    (arrivals : List (Nat × Arrival)) (verdicts : Verdicts) :
    Follows (receive candidates needles limit ticket n arrivals verdicts) ticket
      (eventsOfReceipt n arrivals) := by
  induction n generalizing arrivals verdicts with
  | zero => exact follows_pure verdicts
  | succ n ih =>
    match arrivals with
    | [] => exact follows_check.bind fun _ => follows_throw nofun
    | (notices, .read _ (.ok _)) :: rest =>
      exact (follows_arrive notices).bind fun _ => follows_check.bind fun _ => ih rest _
    | (notices, .read _ (.error _)) :: _ | (notices, .silence) :: _ | (notices, .closed) :: _ =>
      exact (follows_arrive notices).bind fun _ => follows_check.bind fun _ => follows_throw nofun

/-- A run ends as its events say. -/
theorem follows_run (backend : Backend) (course : Course) (request : Request) :
    Follows (run backend course request ticket) ticket (course.events backend request) := by
  have hneedles : request.filters.filterMap Needle.ofFilter? = request.needles := rfl
  unfold run Course.events
  simp only [hneedles]
  cases backend.available with
  | false => exact follows_throw nofun
  | true =>
    refine (follows_arrive course.beforeQuery).bind fun _ => follows_check.bind fun _ =>
      (follows_arrive course.duringQuery).bind fun _ => ?_
    cases backend.answer (Query.compile request.filters) with
    | error fault => exact follows_throw nofun
    | ok candidates =>
      have hrest : ∀ kept : List Hit, Follows
          (do arrive course.afterReads; check ticket; return sortHits request.sort kept)
          ticket [.notices course.afterReads, .look] := fun kept =>
        (follows_arrive course.afterReads).bind fun _ => follows_check.bind fun _ => follows_pure _
      refine follows_check.bind fun _ => ?_
      cases request.needles.isEmpty with
      | true => exact hrest candidates
      | false =>
        exact ((follows_receive candidates _ _ _ _ _).map _).bind hrest

/-! ## When a ticket for the version of now is cancelled -/

theorem Signals.current_notices (n : Nat) (s : Signals) :
    (notices n s).version.current = s.version.current + UInt64.ofNat n := by
  induction n generalizing s with
  | zero => simp
  | succ n ih =>
    have hnotice : s.notice.version.current = s.version.current + 1 := rfl
    rw [notices_succ, ih, hnotice, UInt64.ofNat_add]
    ac_rfl

/-- The version, which is a word, comes round after `UInt64.size` notices. -/
theorem isCancelled_notices_iff (s : Signals) (n : Nat) :
    s.version.ticket.isCancelled (Signals.notices n s).version = true ↔ n % UInt64.size ≠ 0 := by
  have hword : UInt64.ofNat n = 0 ↔ n % UInt64.size = 0 := by
    rw [← UInt64.toNat_inj, UInt64.toNat_ofNat']
    rfl
  simp only [Ticket.isCancelled, Version.ticket, bne_iff_ne, Signals.current_notices]
  rw [not_iff_not, ← hword, UInt64.add_eq_left]

theorem le_heardAtEnd (heard : Nat) (events : List Event) : heard ≤ heardAtEnd heard events := by
  induction events generalizing heard with
  | nil => exact Nat.le_refl heard
  | cons event events ih =>
    cases event with
    | notices count =>
      have hrest := ih (heard + count)
      simp only [heardAtEnd]
      omega
    | look => exact ih heard
    | failure => exact Nat.le_refl heard

/-- What has arrived at a look has arrived at the end. -/
theorem le_heardAtEnd_of_mem {heard n : Nat} (h : n ∈ heardAtLooks heard events) :
    n ≤ heardAtEnd heard events := by
  induction events generalizing heard with
  | nil => simp [heardAtLooks] at h
  | cons event events ih =>
    cases event with
    | notices count => exact ih h
    | look =>
      obtain rfl | hlater := List.mem_cons.1 h
      · exact le_heardAtEnd n events
      · exact ih hlater
    | failure => simp [heardAtLooks] at h

/-- If the version has not moved on at any look, then the events are met to the end. -/
theorem ending_of_unseen (s : Signals) {heard : Nat}
    (h : ∀ n ∈ heardAtLooks heard events, n % UInt64.size = 0) :
    ending s.version.ticket events (Signals.notices heard s) =
      (if .failure ∈ events then .failed else .done,
        Signals.notices (heardAtEnd heard events) s) := by
  induction events generalizing heard with
  | nil => rfl
  | cons event events ih =>
    cases event with
    | notices count => simpa [ending, heardAtEnd] using ih h
    | look =>
      obtain ⟨hnow, hlater⟩ := List.forall_mem_cons.1 h
      have hgood : s.version.ticket.isCancelled (Signals.notices heard s).version = false := by
        rw [Bool.eq_false_iff, Ne, isCancelled_notices_iff, not_not]
        exact hnow
      simpa [ending, heardAtEnd, hgood] using ih hlater
    | failure => simp [ending, heardAtEnd]

/-- If the version has moved on at a look, then the run is overtaken, after some notices. -/
theorem ending_of_seen (s : Signals) {heard : Nat}
    (h : ∃ n ∈ heardAtLooks heard events, n % UInt64.size ≠ 0) :
    ∃ n, 0 < n ∧ ending s.version.ticket events (Signals.notices heard s) =
      (.superseded, Signals.notices n s) := by
  induction events generalizing heard with
  | nil => simp [heardAtLooks] at h
  | cons event events ih =>
    cases event with
    | notices count => simpa [ending] using ih h
    | look =>
      simp only [ending]
      split
      · next hcancelled =>
        have hmoved := (isCancelled_notices_iff s heard).1 hcancelled
        exact ⟨heard, Nat.pos_of_ne_zero fun hzero => hmoved (by simp [hzero]), rfl⟩
      · next hgood =>
        rw [isCancelled_notices_iff] at hgood
        obtain ⟨n, hn, hmoved⟩ := h
        obtain rfl | hlater := List.mem_cons.1 hn
        · exact absurd hmoved hgood
        · exact ih ⟨n, hlater, hmoved⟩
    | failure => simp [heardAtLooks] at h

end NoteSearch.Search

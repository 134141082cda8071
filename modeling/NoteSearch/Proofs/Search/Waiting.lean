import NoteSearch.Proofs.Search.Run

/-!
# Bodies that are waited for in vain

Where every body can be read and the ticket is good, a run has only one way to fail: it waits for a
body that does not come. None may arrive for as long as is waited, or no reader may be left.
-/
namespace NoteSearch.Search

/-! ## Waiting for the next body -/

variable {candidates : List Hit} {needles : List Needle} {limit : Nat} {ticket : Ticket}
variable {s : Signals}

/-- As long as there are fewer verdicts than candidates, one of the candidates is pending. -/
theorem exists_firstPending {verdicts : Verdicts} (h : verdicts.length < candidates.length) :
    ∃ hit ∈ candidates, firstPending candidates verdicts = hit.path := by
  have hpending : ∃ i ∈ List.range candidates.length, (verdicts.lookup i).isNone = true := by
    by_contra hall
    push Not at hall
    have hread : List.range candidates.length ⊆ verdicts.map (·.1) := by
      intro i hi
      obtain ⟨verdict, hverdict⟩ :=
        Option.ne_none_iff_exists'.1 (mt Option.isNone_iff_eq_none.2 (hall i hi))
      obtain ⟨before, after, hsplit, -⟩ := List.lookup_eq_some_iff.1 hverdict
      exact List.mem_map.2 ⟨(i, verdict), by simp [hsplit], rfl⟩
    have hle := (List.subperm_of_subset List.nodup_range hread).length_le
    rw [List.length_range, List.length_map] at hle
    omega
  obtain ⟨i, hi⟩ := Option.isSome_iff_exists.1 (List.find?_isSome.2 hpending)
  have hlt := List.mem_range.1 (List.mem_of_find?_eq_some hi)
  refine ⟨candidates[i], List.getElem_mem hlt, ?_⟩
  simp [firstPending, pathAt, hi, hlt]

/-- The body of a candidate was missing: it did not come in time, or there was nobody left to send
it. -/
def Fault.IsMissing (candidates : List Hit) (limit : Nat) (fault : Fault) : Prop :=
  ∃ hit ∈ candidates,
    fault = .fetch hit.path (.timedOut hit.path limit) ∨
      fault = .fetch hit.path (.interrupted hit.path)

/-- If no reader fails, but fewer bodies arrive than are waited for, the wait ends in vain. -/
theorem fails_receive {n : Nat} {arrivals : List (Nat × Arrival)} {verdicts : Verdicts}
    (hsent : ∀ a ∈ arrivals.take n, ∀ index fault, a.2 ≠ .read index (.error fault))
    (hlasts : ticket.Lasts s (noticesBefore (arrivals.take n)))
    (hcount : verdicts.length + n = candidates.length)
    (hmissing : ¬ ∃ deliveries : List Delivery,
      arrivals.take n = deliveries.map (·.arrival) ∧ deliveries.length = n) :
    ∃ fault : Fault, fault.IsMissing candidates limit ∧
      Fails (receive candidates needles limit ticket n arrivals verdicts) s fault := by
  induction n generalizing arrivals verdicts s with
  | zero => exact absurd ⟨[], rfl, rfl⟩ hmissing
  | succ n ih =>
    obtain ⟨hit, hhit, hpath⟩ := @exists_firstPending candidates verdicts (by omega)
    cases arrivals with
    | nil =>
      have hgood : ticket.isCancelled s.version = false := hlasts 0 (Nat.zero_le _)
      refine ⟨_, ⟨hit, hhit, .inr rfl⟩, ?_⟩
      rw [receive, hpath]
      exact (yields_check hgood).fails_bind fails_throw
    | cons a rest =>
      obtain ⟨notices, arrival⟩ := a
      rw [List.take_succ_cons] at hsent hlasts hmissing
      rw [noticesBefore] at hlasts
      obtain ⟨hnow, hlater⟩ := List.forall_mem_cons.1 hsent
      have hcheck := yields_check (hlasts notices (Nat.le_add_right _ _))
      cases arrival with
      | read index outcome =>
        cases outcome with
        | error fault => exact absurd rfl (hnow index fault)
        | ok body =>
          have hrest : ¬ ∃ deliveries : List Delivery,
              rest.take n = deliveries.map (·.arrival) ∧ deliveries.length = n := by
            rintro ⟨deliveries, hdeliveries, rfl⟩
            refine hmissing ⟨⟨notices, index, body⟩ :: deliveries, ?_, rfl⟩
            rw [hdeliveries]
            rfl
          obtain ⟨fault, hfault, hfails⟩ :=
            @ih _ _ ((index, Needle.allPass needles body) :: verdicts) hlater hlasts.after
              (by rw [List.length_cons]; omega) hrest
          exact ⟨fault, hfault, (yields_arrive _ _).fails_bind (hcheck.fails_bind hfails)⟩
      | silence =>
        refine ⟨_, ⟨hit, hhit, .inl rfl⟩, ?_⟩
        rw [receive, hpath]
        exact (yields_arrive _ _).fails_bind (hcheck.fails_bind fails_throw)
      | closed =>
        refine ⟨_, ⟨hit, hhit, .inr rfl⟩, ?_⟩
        rw [receive, hpath]
        exact (yields_arrive _ _).fails_bind (hcheck.fails_bind fails_throw)

/-! ## Runs that wait in vain -/

variable {read : String → Except Vault.Fault String} {course : Course} {backend : Backend}
variable {request : Request}

/-- While the ticket is good, a run in which nothing but bodies is sent either succeeds, or it waits
in vain for one of the bodies, which are not all delivered then. -/
theorem yields_or_fails_run (havailable : backend.available = true)
    (hanswer : backend.answer (Query.compile request.filters) = .ok candidates)
    (hread : ∀ hit ∈ candidates, ∃ body, read hit.path = .ok body)
    (hsends : course.SendsWhatIsRead candidates read)
    (hlasts : ticket.Lasts s (course.noticesOfRun candidates)) :
    (∃ s', Yields (run backend course request ticket) s
      (sortHits request.sort (request.kept read candidates)) s') ∨
    request.needles.isEmpty = false ∧ ¬ course.Delivers candidates read ∧
      ∃ fault : Fault, fault.IsMissing candidates request.limit ∧
        Fails (run backend course request ticket) s fault := by
  by_cases hcome : request.needles.isEmpty = false → ∃ deliveries : List Delivery,
      course.received candidates = deliveries.map (·.arrival) ∧
        deliveries.length = candidates.length
  · exact .inl <| yields_of_deliveries havailable hanswer hlasts (fun _ => hsends.isFaithful) hcome
  · obtain ⟨hneedles, hmissing⟩ := Classical.not_imp.1 hcome
    refine .inr ⟨hneedles, fun h => hmissing (h.exists_deliveries hread), ?_⟩
    have hsent : ∀ a ∈ (course.arrivals candidates).take candidates.length,
        ∀ index fault, a.2 ≠ .read index (.error fault) := by
      intro a ha index fault heq
      obtain ⟨hit, hhit, hfault⟩ := hsends.outcomes a ha index _ heq
      obtain ⟨body, hbody⟩ := hread hit (List.mem_of_getElem? hhit)
      rw [hbody] at hfault
      cases hfault
    -- the ticket is good from the query on, and from the answer on
    have hqueried : ticket.Lasts (Signals.notices course.beforeQuery s)
        (course.duringQuery + noticesBefore (course.received candidates)) :=
      (hlasts.mono (by unfold Course.noticesOfRun; omega)).after
    have hanswered := hqueried.after
    obtain ⟨fault, hfault, hfails⟩ := @fails_receive candidates request.needles request.limit ticket
      _ candidates.length (course.arrivals candidates) [] hsent hanswered (by simp) hmissing
    refine ⟨fault, hfault, ?_⟩
    have hdef : request.filters.filterMap Needle.ofFilter? = request.needles := rfl
    simp only [run, havailable, hdef, hanswer, hneedles, Bool.false_eq_true, if_false]
    exact (yields_arrive _ _).fails_bind <|
      (yields_check (hqueried 0 (Nat.zero_le _))).fails_bind <|
      (yields_arrive _ _).fails_bind <| (yields_pure_iff.2 ⟨rfl, rfl⟩).fails_bind <|
      (yields_check (hanswered 0 (Nat.zero_le _))).fails_bind <| (hfails.map _).bind _

end NoteSearch.Search

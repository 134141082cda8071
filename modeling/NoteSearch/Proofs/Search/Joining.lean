import NoteSearch.Proofs.Filter.Meaning
import NoteSearch.Proofs.Search.Run

/-!
# Bodies join in any order

The bodies of candidates are read side by side, and what the readers come to may arrive in any
order. If all of them succeed, that order makes no difference; if any fails, the first failure to
arrive is what the run fails with. And only the bodies of candidates matter, and only if there are
filters on text.
-/
namespace NoteSearch
open Search Text

/-- The filter lets a body pass, unless it is on text that the body should hold and does not, or
should not hold and does. -/
def Filter.Allows (f : Filter) (body : String) : Prop :=
  f.isText = true → (lower f.value.toList <:+: lower body.toList ↔ f.reversed = false)

instance (f : Filter) (body : String) : Decidable (f.Allows body) :=
  inferInstanceAs (Decidable (_ → (_ ↔ _)))

namespace Search

theorem allPass_iff {filters : List Filter} {body : String} :
    Needle.allPass (filters.filterMap Needle.ofFilter?) body = true ↔
      ∀ f ∈ filters, f.Allows body := by
  unfold Needle.allPass
  induction filters with
  | nil => simp
  | cons f filters ih =>
    rw [List.forall_mem_cons, ← ih]
    cases htext : f.isText with
    | false =>
      have hnone : Needle.ofFilter? f = none := by simp [Needle.ofFilter?, htext]
      have hallows : f.Allows body := fun h => by simp [htext] at h
      simp [hnone, hallows]
    | true =>
      have hsome : Needle.ofFilter? f = some ⟨lower f.value.toList, f.reversed⟩ := by
        simp [Needle.ofFilter?, htext]
      have hmeets : Needle.meets ⟨lower f.value.toList, f.reversed⟩ (lower body.toList) = true ↔
          f.Allows body := by
        rw [Needle.meets, Filter.Allows, ← occurs_iff]
        cases occurs (lower f.value.toList) (lower body.toList) <;> cases f.reversed <;>
          simp [htext]
      simp [hsome, ← hmeets]

/-! ## Arrivals in any order -/

variable {outcomes : List (Except Vault.Fault String)} {received rest : List (Nat × Arrival)}
variable {candidates : List Hit} {needles : List Needle} {limit : Nat} {ticket : Ticket}
variable {s : Signals}

/-- A reader has failed to get a body. -/
def Arrival.isFailure : Arrival → Bool
  | .read _ (.error _) => true
  | .read _ (.ok _) | .silence | .closed => false

/-- The outcomes that come before any failure are bodies. -/
theorem ArriveInSomeOrder.exists_deliveries (h : ArriveInSomeOrder outcomes received)
    {before : List (Nat × Arrival)} (hbefore : before ⊆ received)
    (hnone : ∀ a ∈ before, a.2.isFailure = false) :
    ∃ deliveries : List Delivery, before = deliveries.map (·.arrival) := by
  refine Delivery.exists_map_arrival fun a ha => ?_
  obtain ⟨index, outcome, hread, -⟩ := h.exists_of_mem (hbefore ha)
  have hgood := hnone a ha
  rw [hread] at hgood
  cases outcome with
  | error fault => cases hgood
  | ok body => exact ⟨⟨a.1, index, body⟩, Prod.ext rfl hread.symm⟩

/-! ## The join -/

/-- The first failure that arrives while the ticket is good ends the join. -/
theorem fails_receive_of_failure {deliveries : List Delivery} {notices index : Nat}
    {fault : Vault.Fault} (more : Nat) {verdicts : Verdicts}
    (h : ticket.Lasts s (noticesBefore (deliveries.map (·.arrival)) + notices)) :
    Fails
      (receive candidates needles limit ticket (deliveries.length + more + 1)
        (deliveries.map (·.arrival) ++ (notices, .read index (.error fault)) :: rest) verdicts)
      s (.fetch (pathAt candidates index) fault) := by
  induction deliveries generalizing verdicts s with
  | nil =>
    have hcheck := yields_check (h notices (by omega))
    exact (yields_arrive _ _).fails_bind (hcheck.fails_bind fails_throw)
  | cons d deliveries ih =>
    simp only [List.map_cons, Delivery.arrival, noticesBefore] at h
    have hcheck := yields_check (h d.notices (by omega))
    have hlater : ticket.Lasts (Signals.notices d.notices s)
        (noticesBefore (deliveries.map (·.arrival)) + notices) := by
      refine Ticket.Lasts.after ?_
      rwa [← Nat.add_assoc]
    rw [List.length_cons, Nat.succ_add]
    exact (yields_arrive _ _).fails_bind (hcheck.fails_bind (ih hlater))

/-- Where every candidate has been read, those pass whose bodies deserve it. -/
theorem passing_of_bodies {bodies : List String} {deliveries : List Delivery}
    (hbodies : bodies.length = candidates.length)
    (hlength : deliveries.length = candidates.length)
    (hdistinct : (deliveries.map (·.index)).Nodup)
    (hof : ∀ d ∈ deliveries, bodies[d.index]? = some d.body) :
    passing candidates (deliveries.map (·.verdict needles)).reverse =
      ((candidates.zip bodies).filter fun pair => Needle.allPass needles pair.2).map (·.1) := by
  have hin : ∀ d ∈ deliveries, d.index < candidates.length := fun d hd =>
    hbodies ▸ (List.getElem?_eq_some_iff.1 (hof d hd)).1
  have hverdict : ∀ p ∈ candidates.zipIdx,
      (deliveries.map (·.verdict needles)).reverse.lookup p.2 =
        some (Needle.allPass needles (bodies[p.2]?.getD "")) := by
    intro p hp
    have hi := (List.getElem?_eq_some_iff.1 (List.mem_zipIdx_iff_getElem?.1 hp)).1
    obtain ⟨d, hd, hindex, hlookup⟩ :=
      @lookup_verdicts candidates needles deliveries hlength hdistinct hin p.2 hi
    rw [hlookup, ← hindex, hof d hd, Option.getD_some]
  have hzip : candidates.zip bodies =
      candidates.zipIdx.map fun p => (p.1, bodies[p.2]?.getD "") := by
    refine List.ext_getElem (by simp [hbodies]) fun i hi hi' => ?_
    have hbody : i < bodies.length := by simp at hi; omega
    simp [hbody]
  rw [passing_eq hverdict, hzip, List.filter_map, List.map_map]
  rfl

/-- If all readers succeed, then those candidates are kept whose bodies pass all conditions, in
whichever order the bodies arrive. -/
theorem endOf_matchText_of_bodies {bodies : List String}
    (hbodies : bodies.length = candidates.length)
    (hany : ArriveInSomeOrder (bodies.map .ok) received)
    (hlasts : ticket.Lasts s (noticesBefore received)) :
    (endOf (matchText candidates needles limit ticket (received ++ rest)) s).1 =
      .ok (((candidates.zip bodies).filter fun pair =>
        Needle.allPass needles pair.2).map (·.1)) := by
  have hgood : ∀ a ∈ received, a.2.isFailure = false := by
    intro a ha
    obtain ⟨index, outcome, hread, houtcome⟩ := hany.exists_of_mem ha
    obtain ⟨body, -, rfl⟩ := Option.map_eq_some_iff.1 (List.getElem?_map ▸ houtcome)
    rw [hread]
    rfl
  obtain ⟨deliveries, rfl⟩ := hany.exists_deliveries (List.Subset.refl _) hgood
  have hlength : deliveries.length = candidates.length := by
    simpa [hbodies] using hany.length_eq
  have hdistinct : (deliveries.map (·.index)).Nodup := by
    have honce := hany.nodup
    rw [List.filterMap_map] at honce
    rw [← List.filterMap_eq_map]
    exact honce
  have hof : ∀ d ∈ deliveries, bodies[d.index]? = some d.body := by
    intro d hd
    obtain ⟨index, outcome, hread, houtcome⟩ := hany.exists_of_mem (List.mem_map_of_mem hd)
    simp only [Delivery.arrival, Arrival.read.injEq] at hread
    obtain ⟨rfl, rfl⟩ := hread
    simpa using houtcome
  have hreceived := @yields_receive candidates needles limit ticket deliveries rest [] s hlasts
  rw [List.append_nil, hlength] at hreceived
  have hkept := yields_map_iff.2
    ⟨_, hreceived, passing_of_bodies hbodies hlength hdistinct hof⟩
  exact congrArg Prod.fst hkept

/-- Where a reader fails, bodies arrive up to a first failure, which is that of some reader. -/
theorem ArriveInSomeOrder.exists_first_failure (hany : ArriveInSomeOrder outcomes received)
    (hfails : ∃ fault, .error fault ∈ outcomes) :
    ∃ (deliveries : List Delivery) (notices index : Nat) (fault : Vault.Fault)
      (after : List (Nat × Arrival)),
      received = deliveries.map (·.arrival) ++ (notices, .read index (.error fault)) :: after ∧
      received.find? (·.2.isFailure) = some (notices, .read index (.error fault)) ∧
      outcomes[index]? = some (.error fault) := by
  have hfound : (received.find? (·.2.isFailure)).isSome = true := by
    obtain ⟨fault, hfault⟩ := hfails
    obtain ⟨index, hindex⟩ := List.getElem?_of_mem hfault
    have hsent : Arrival.read index (.error fault) ∈ received.map (·.2) :=
      (List.Perm.mem_iff hany).2
        (List.mem_map.2 ⟨(.error fault, index), List.mem_zipIdx_iff_getElem?.2 hindex, rfl⟩)
    obtain ⟨a, ha, heq⟩ := List.mem_map.1 hsent
    exact List.find?_isSome.2 ⟨a, ha, by rw [heq]; rfl⟩
  obtain ⟨⟨notices, arrival⟩, hfirst⟩ := Option.isSome_iff_exists.1 hfound
  obtain ⟨hfailure, before, after, hsplit, hnone⟩ := List.find?_eq_some_iff_append.1 hfirst
  have hmem : (notices, arrival) ∈ received :=
    hsplit ▸ List.mem_append_right before List.mem_cons_self
  obtain ⟨index, outcome, hread, houtcome⟩ := hany.exists_of_mem hmem
  obtain rfl : arrival = .read index outcome := hread
  obtain ⟨deliveries, rfl⟩ : ∃ deliveries : List Delivery, before = deliveries.map (·.arrival) :=
    hany.exists_deliveries (hsplit ▸ List.subset_append_left _ _) (by simpa using hnone)
  cases outcome with
  | ok body => cases hfailure
  | error fault => exact ⟨deliveries, notices, index, fault, after, hsplit, hfirst, houtcome⟩

/-- If a reader fails, then the first failure that arrives is that of some candidate, and the join
fails with it. -/
theorem endOf_matchText_of_failure (hlength : outcomes.length = candidates.length)
    (hany : ArriveInSomeOrder outcomes received)
    (hlasts : ticket.Lasts s (noticesBefore received))
    (hfails : ∃ fault, .error fault ∈ outcomes) :
    ∃ notices index fault hit,
      received.find? (·.2.isFailure) = some (notices, .read index (.error fault)) ∧
      candidates[index]? = some hit ∧ outcomes[index]? = some (.error fault) ∧
      (endOf (matchText candidates needles limit ticket (received ++ rest)) s).1 =
        .error (.fetch hit.path fault) := by
  obtain ⟨deliveries, notices, index, fault, after, hsplit, hfirst, houtcome⟩ :=
    hany.exists_first_failure hfails
  have hindex : index < candidates.length :=
    hlength ▸ (List.getElem?_eq_some_iff.1 houtcome).1
  refine ⟨notices, index, fault, candidates[index], hfirst, by simp, houtcome, ?_⟩
  -- more outcomes are waited for than there are bodies before the failure
  have hcount : candidates.length = deliveries.length + after.length + 1 := by
    rw [← hlength, ← hany.length_eq, hsplit]
    simp [Nat.add_assoc]
  have hgood : ticket.Lasts s (noticesBefore (deliveries.map (·.arrival)) + notices) := by
    refine hlasts.mono ?_
    rw [hsplit, noticesBefore_append, noticesBefore]
    omega
  have hends := @fails_receive_of_failure (after ++ rest) candidates needles limit ticket s
    deliveries notices index fault after.length [] hgood
  have hpath : pathAt candidates index = candidates[index].path := by simp [pathAt, hindex]
  rw [hpath, ← hcount] at hends
  rw [hsplit, List.append_assoc, List.cons_append]
  exact hends.map _

/-! ## What a run does not depend on -/

variable {backend : Backend} {request : Request} {course : Course}

/-- What arrives makes a difference to a run only where it has asked for bodies. -/
theorem run_with_arrivals {arrivals arrivals' : List Hit → List (Nat × Arrival)}
    (h : ∀ candidates, backend.available = true →
      backend.answer (Query.compile request.filters) = .ok candidates →
      (∃ f ∈ request.filters, f.isText = true) → arrivals candidates = arrivals' candidates) :
    run backend { course with arrivals } request ticket =
      run backend { course with arrivals := arrivals' } request ticket := by
  unfold run
  cases havailable : backend.available with
  | false => simp only [Bool.not_false, if_true, throw_bind]
  | true =>
    cases hanswer : backend.answer (Query.compile request.filters) with
    | error fault => simp only [throw_bind]
    | ok candidates =>
      cases hempty : (request.filters.filterMap Needle.ofFilter?).isEmpty with
      | true => simp only [hempty, if_true]
      | false =>
        simp only [pure_bind, h candidates havailable hanswer (Request.exists_isText hempty)]

/-- What arrives, but if a candidate was read, then what `read` gives for its path. -/
def Arrival.reading (candidates : List Hit) (read : String → Except Vault.Fault String) :
    Arrival → Arrival
  | .read index outcome => .read index ((candidates[index]?.map (read ·.path)).getD outcome)
  | .silence => .silence
  | .closed => .closed

/-- The course in which everything happens as in another, but readers send what `read` gives. -/
def Course.reading (course : Course) (read : String → Except Vault.Fault String) : Course :=
  { course with
    arrivals := fun candidates =>
      (course.arrivals candidates).map fun (notices, arrival) =>
        (notices, arrival.reading candidates read) }

theorem Arrival.reading_congr {read read' : String → Except Vault.Fault String}
    (h : ∀ hit ∈ candidates, read hit.path = read' hit.path) (a : Arrival) :
    a.reading candidates read = a.reading candidates read' := by
  cases a with
  | read index outcome =>
    simp only [reading]
    cases hit? : candidates[index]? with
    | none => rfl
    | some hit =>
      have hread := h hit (List.mem_of_getElem? hit?)
      simp only [Option.map_some, hread]
  | silence => rfl
  | closed => rfl

/-- Whatever else happens around a run, it is the same if the bodies of candidates are, or if there
is no filter on text. -/
theorem run_reading_congr (course : Course) {read read' : String → Except Vault.Fault String}
    (h : ∀ candidates, backend.answer (Query.compile request.filters) = .ok candidates →
      (∃ f ∈ request.filters, f.isText = true) →
      ∀ hit ∈ candidates, read hit.path = read' hit.path) :
    run backend (course.reading read) request ticket =
      run backend (course.reading read') request ticket := by
  refine run_with_arrivals fun candidates _ hanswer htext => List.map_congr_left fun a _ => ?_
  exact Prod.ext rfl (Arrival.reading_congr (h candidates hanswer htext) a.2)

end Search
end NoteSearch

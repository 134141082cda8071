import Mathlib.Data.List.Perm.Subperm
import Mathlib.Data.Set.List
import NoteSearch.Search.Run

/-!
# What a run finds

A run that succeeds has found the candidates whose bodies meet all conditions, whatever else went
on around it and in whichever order the bodies came. And a run that is not disturbed does
succeed.
-/
namespace NoteSearch.Search

/-! ## Parts of a run that end well -/

section
variable {α β : Type} {s s' : Signals}

/-- How a part of a run ends that is started under `s`, and the signals it leaves. -/
def endOf (x : RunM α) (s : Signals) : Except Fault α × Signals := x.run.run s

/-- Started under `s`, the part ends with a value and leaves `s'`. -/
def Yields (x : RunM α) (s : Signals) (a : α) (s' : Signals) : Prop := endOf x s = (.ok a, s')

theorem endOf_bind (x : RunM α) (f : α → RunM β) (s : Signals) :
    endOf (x >>= f) s = match endOf x s with
      | (.ok a, s₁) => endOf (f a) s₁
      | (.error fault, s₁) => (.error fault, s₁) := by
  rcases hx : endOf x s with ⟨fault | a, s₁⟩
  · simp only [endOf, ExceptT.run_bind, StateT.run_bind] at hx ⊢
    rw [hx]
    rfl
  · simp only [endOf, ExceptT.run_bind, StateT.run_bind] at hx ⊢
    rw [hx]
    rfl

theorem throw_bind (fault : Fault) (f : α → RunM β) :
    (throw fault : RunM α) >>= f = throw fault :=
  rfl

theorem map_throw (f : α → β) (fault : Fault) : f <$> (throw fault : RunM α) = throw fault :=
  rfl

@[simp] theorem yields_pure_iff {a b : α} : Yields (pure a) s b s' ↔ a = b ∧ s = s' := by
  change ((Except.ok a : Except Fault α), s) = (.ok b, s') ↔ _
  simp

@[simp] theorem not_yields_throw {fault : Fault} {a : α} : ¬ Yields (throw fault) s a s' := by
  change ¬ ((Except.error fault : Except Fault α), s) = (.ok a, s')
  simp

theorem yields_bind_iff {x : RunM α} {f : α → RunM β} {b : β} :
    Yields (x >>= f) s b s' ↔ ∃ a s₁, Yields x s a s₁ ∧ Yields (f a) s₁ b s' := by
  unfold Yields
  rw [endOf_bind]
  rcases hx : endOf x s with ⟨fault | a, s₁⟩
  · simp
  · simp

theorem yields_map_iff {f : α → β} {x : RunM α} {b : β} :
    Yields (f <$> x) s b s' ↔ ∃ a, Yields x s a s' ∧ f a = b := by
  rw [← bind_pure_comp, yields_bind_iff]
  simp

@[simp] theorem yields_arrive_iff {n : Nat} {u : Unit} :
    Yields (arrive n) s u s' ↔ Signals.notices n s = s' := by
  change ((Except.ok () : Except Fault Unit), Signals.notices n s) = (.ok u, s') ↔ _
  simp

theorem endOf_check (ticket : Ticket) (s : Signals) : endOf (check ticket) s =
    if ticket.isCancelled s.version then (.error .superseded, s) else (.ok (), s) := by
  change endOf (if ticket.isCancelled s.version then throw .superseded else pure ()) s = _
  split <;> rfl

@[simp] theorem yields_check_iff {ticket : Ticket} {u : Unit} :
    Yields (check ticket) s u s' ↔ ticket.isCancelled s.version = false ∧ s = s' := by
  unfold Yields
  rw [endOf_check]
  cases ticket.isCancelled s.version <;> simp

end

/-! ## Parts of a run that fail -/

section
variable {α β : Type} {s s₁ : Signals} {fault : Fault}

/-- Started under `s`, the part ends with this fault. -/
def Fails (x : RunM α) (s : Signals) (fault : Fault) : Prop := (endOf x s).1 = .error fault

theorem fails_throw : Fails (throw fault : RunM α) s fault := rfl

theorem Fails.bind {x : RunM α} (h : Fails x s fault) (f : α → RunM β) :
    Fails (x >>= f) s fault := by
  unfold Fails at h ⊢
  rw [endOf_bind]
  rcases hx : endOf x s with ⟨fault' | a, s'⟩
  · rw [hx] at h
    exact congrArg Except.error (Except.error.inj h)
  · rw [hx] at h
    cases h

theorem Yields.fails_bind {x : RunM α} {a : α} {f : α → RunM β} (h : Yields x s a s₁)
    (h' : Fails (f a) s₁ fault) : Fails (x >>= f) s fault := by
  unfold Yields at h
  unfold Fails
  rw [endOf_bind, h]
  exact h'

theorem yields_arrive (n : Nat) (s : Signals) : Yields (arrive n) s () (Signals.notices n s) := rfl

theorem yields_check {ticket : Ticket} (h : ticket.isCancelled s.version = false) :
    Yields (check ticket) s () s :=
  yields_check_iff.2 ⟨h, rfl⟩

theorem Fails.map {x : RunM α} (h : Fails x s fault) (f : α → β) : Fails (f <$> x) s fault := by
  rw [← bind_pure_comp]
  exact h.bind _

end

/-! ## Notices and tickets -/

@[simp] theorem Signals.notices_notices (m n : Nat) (s : Signals) :
    notices m (notices n s) = notices (n + m) s := by
  induction n generalizing s with
  | zero => simp
  | succ n ih => rw [notices_succ, ih, Nat.succ_add, notices_succ]

/-- The ticket is good for as long as no more than `n` notices arrive. -/
def Ticket.Lasts (ticket : Ticket) (s : Signals) (n : Nat) : Prop :=
  ∀ k ≤ n, ticket.isCancelled (Signals.notices k s).version = false

theorem Ticket.lasts_unlimited (s : Signals) (n : Nat) : Ticket.unlimited.Lasts s n :=
  fun _ _ => rfl

theorem Ticket.Lasts.mono {ticket : Ticket} {s : Signals} {m n : Nat} (h : ticket.Lasts s n)
    (hle : m ≤ n) : ticket.Lasts s m :=
  fun k hk => h k (hk.trans hle)

theorem Ticket.Lasts.after {ticket : Ticket} {s : Signals} {m n : Nat}
    (h : ticket.Lasts s (m + n)) : ticket.Lasts (Signals.notices m s) n := by
  intro k hk
  rw [Signals.notices_notices]
  exact h (m + k) (by omega)

/-! ## Bodies that arrive -/

/-- A body that arrives for the candidate at an index, after some notices. -/
structure Delivery where
  notices : Nat
  index : Nat
  body : String

namespace Delivery

def arrival (d : Delivery) : Nat × Arrival := (d.notices, .read d.index (.ok d.body))

/-- What is noted down about the candidate. -/
def verdict (needles : List Needle) (d : Delivery) : Nat × Bool :=
  (d.index, Needle.allPass needles d.body)

/-- Arrivals each of which is a body are deliveries. -/
theorem exists_map_arrival {arrivals : List (Nat × Arrival)}
    (h : ∀ a ∈ arrivals, a ∈ Set.range arrival) :
    ∃ deliveries : List Delivery, arrivals = deliveries.map (·.arrival) := by
  obtain ⟨deliveries, hdeliveries⟩ : arrivals ∈ Set.range (List.map arrival) := by
    rw [Set.range_list_map]
    exact h
  exact ⟨deliveries, hdeliveries.symm⟩

end Delivery

/-- How many notices come before some arrivals. -/
def noticesBefore : List (Nat × Arrival) → Nat
  | [] => 0
  | (notices, _) :: rest => notices + noticesBefore rest

theorem noticesBefore_append (before after : List (Nat × Arrival)) :
    noticesBefore (before ++ after) = noticesBefore before + noticesBefore after := by
  induction before with
  | nil => exact (Nat.zero_add _).symm
  | cons a before ih => rw [List.cons_append, noticesBefore, ih, noticesBefore, Nat.add_assoc]

theorem noticesBefore_eq_zero {arrivals : List (Nat × Arrival)} (h : ∀ a ∈ arrivals, a.1 = 0) :
    noticesBefore arrivals = 0 := by
  induction arrivals with
  | nil => rfl
  | cons a arrivals ih =>
    obtain ⟨ha, hrest⟩ := List.forall_mem_cons.1 h
    rw [noticesBefore, ha, ih hrest]

section
variable {candidates : List Hit} {needles : List Needle} {limit : Nat} {ticket : Ticket}

/-- Whoever has received so many verdicts has got them from that many first arrivals, each of which
was a body. -/
theorem deliveries_of_receive {n : Nat} {arrivals : List (Nat × Arrival)}
    {verdicts result : Verdicts} {s s' : Signals}
    (h : Yields (receive candidates needles limit ticket n arrivals verdicts) s result s') :
    ∃ deliveries : List Delivery, arrivals.take n = deliveries.map (·.arrival) ∧
      deliveries.length = n ∧
      result = (deliveries.map (·.verdict needles)).reverse ++ verdicts := by
  induction n generalizing arrivals verdicts s with
  | zero =>
    simp only [receive, yields_pure_iff] at h
    exact ⟨[], rfl, rfl, h.1.symm⟩
  | succ n ih =>
    match arrivals with
    | [] =>
      simp only [receive, yields_bind_iff] at h
      obtain ⟨_, _, _, hthrow⟩ := h
      exact absurd hthrow not_yields_throw
    | (notices, .read index (.ok body)) :: arrivals =>
      simp only [receive, yields_bind_iff] at h
      obtain ⟨_, _, _, _, _, _, hrest⟩ := h
      obtain ⟨deliveries, harrivals, rfl, rfl⟩ := ih hrest
      refine ⟨⟨notices, index, body⟩ :: deliveries, ?_, rfl, by simp [Delivery.verdict]⟩
      rw [List.take_succ_cons, harrivals]
      rfl
    | (_, .read _ (.error _)) :: _ | (_, .silence) :: _ | (_, .closed) :: _ =>
      simp only [receive, yields_bind_iff] at h
      obtain ⟨_, _, _, _, _, _, hthrow⟩ := h
      exact absurd hthrow not_yields_throw

/-- Bodies that arrive while the ticket is good are all received. -/
theorem yields_receive {deliveries : List Delivery} {rest : List (Nat × Arrival)}
    {verdicts : Verdicts} {s : Signals}
    (h : ticket.Lasts s (noticesBefore (deliveries.map (·.arrival)))) :
    Yields
      (receive candidates needles limit ticket deliveries.length
        (deliveries.map (·.arrival) ++ rest) verdicts)
      s ((deliveries.map (·.verdict needles)).reverse ++ verdicts)
      (Signals.notices (noticesBefore (deliveries.map (·.arrival))) s) := by
  induction deliveries generalizing verdicts s with
  | nil => simp [receive, noticesBefore]
  | cons d deliveries ih =>
    simp only [List.map_cons, Delivery.arrival, noticesBefore] at h ⊢
    have hnow := h d.notices (Nat.le_add_right _ _)
    have hrest := @ih (d.verdict needles :: verdicts) _ h.after
    simp only [receive, List.length_cons, List.cons_append, yields_bind_iff, yields_arrive_iff,
      yields_check_iff]
    refine ⟨(), _, rfl, (), _, ⟨hnow, rfl⟩, ?_⟩
    simpa [Delivery.arrival, Delivery.verdict] using hrest

/-- Whether what is read at a path is a body that meets all conditions. -/
def Needle.allPassAt (needles : List Needle) (read : String → Except Vault.Fault String)
    (path : String) : Bool :=
  match read path with
  | .ok body => Needle.allPass needles body
  | .error _ => false

variable {read : String → Except Vault.Fault String}

/-- The body of this delivery is that of the candidate at its index. -/
def Delivery.IsOf (candidates : List Hit) (read : String → Except Vault.Fault String)
    (d : Delivery) : Prop :=
  ∃ hit, candidates[d.index]? = some hit ∧ read hit.path = .ok d.body

/-- Once as many bodies have come as there are candidates, each for another one, the verdict on a
candidate is the one that its body deserves. -/
theorem lookup_verdicts {deliveries : List Delivery}
    (hlength : deliveries.length = candidates.length)
    (hdistinct : (deliveries.map (·.index)).Nodup)
    (hin : ∀ d ∈ deliveries, d.index < candidates.length) {i : Nat} (hi : i < candidates.length) :
    ∃ d ∈ deliveries, d.index = i ∧
      (deliveries.map (·.verdict needles)).reverse.lookup i =
        some (Needle.allPass needles d.body) := by
  -- as many different indices as there are candidates leave none of them out
  have hrange : ∀ j ∈ deliveries.map (·.index), j ∈ List.range candidates.length := by
    intro j hj
    obtain ⟨d, hd, rfl⟩ := List.mem_map.1 hj
    exact List.mem_range.2 (hin d hd)
  have hperm : (deliveries.map (·.index)).Perm (List.range candidates.length) :=
    (List.subperm_of_subset hdistinct hrange).perm_of_length_le (by simp [hlength])
  have hmem : i ∈ deliveries.map (·.index) := hperm.mem_iff.2 (List.mem_range.2 hi)
  cases hlookup : (deliveries.map (·.verdict needles)).reverse.lookup i with
  | none =>
    obtain ⟨d, hd, rfl⟩ := List.mem_map.1 hmem
    have hnone := List.lookup_eq_none_iff.1 hlookup (d.verdict needles)
      (List.mem_reverse.2 (List.mem_map_of_mem hd))
    simp [Delivery.verdict] at hnone
  | some verdict =>
    obtain ⟨before, after, hsplit, -⟩ := List.lookup_eq_some_iff.1 hlookup
    have hpair : (i, verdict) ∈ (deliveries.map (·.verdict needles)).reverse := by simp [hsplit]
    obtain ⟨d, hd, heq⟩ := List.mem_map.1 (List.mem_reverse.1 hpair)
    simp only [Delivery.verdict, Prod.mk.injEq] at heq
    obtain ⟨rfl, rfl⟩ := heq
    exact ⟨d, hd, rfl, rfl⟩

/-- If there is a verdict on every candidate, these verdicts say who passes. -/
theorem passing_eq {verdicts : Verdicts} {keep : Hit × Nat → Bool}
    (h : ∀ p ∈ candidates.zipIdx, verdicts.lookup p.2 = some (keep p)) :
    passing candidates verdicts = (candidates.zipIdx.filter keep).map (·.1) := by
  have hkeep : ∀ p ∈ candidates.zipIdx, (verdicts.lookup p.2 == some true) = keep p := by
    intro p hp
    rw [h p hp]
    cases keep p <;> rfl
  unfold passing
  rw [List.filter_congr hkeep]

/-- The candidates that pass are those whose bodies deserve it. -/
theorem passing_verdicts {deliveries : List Delivery}
    (hlength : deliveries.length = candidates.length)
    (hdistinct : (deliveries.map (·.index)).Nodup)
    (hof : ∀ d ∈ deliveries, d.IsOf candidates read) :
    passing candidates (deliveries.map (·.verdict needles)).reverse =
      candidates.filter (Needle.allPassAt needles read ·.path) := by
  have hin : ∀ d ∈ deliveries, d.index < candidates.length := by
    intro d hd
    obtain ⟨hit, hhit, -⟩ := hof d hd
    exact (List.getElem?_eq_some_iff.1 hhit).1
  have hverdict : ∀ p ∈ candidates.zipIdx,
      (deliveries.map (·.verdict needles)).reverse.lookup p.2 =
        some (Needle.allPassAt needles read p.1.path) := by
    intro p hp
    have hhit := List.mem_zipIdx_iff_getElem?.1 hp
    obtain ⟨d, hd, hindex, hlookup⟩ := @lookup_verdicts candidates needles deliveries hlength
      hdistinct hin p.2 (List.getElem?_eq_some_iff.1 hhit).1
    obtain ⟨other, hother, hbody⟩ := hof d hd
    rw [hindex, hhit] at hother
    cases hother
    rw [hlookup, Needle.allPassAt, hbody]
  rw [passing_eq hverdict]
  conv_rhs => rw [← List.zipIdx_map_fst 0 candidates, List.filter_map]
  rfl

end

/-! ## What a request finds -/

variable {request : Request} {backend : Backend} {read : String → Except Vault.Fault String}
variable {course : Course} {ticket : Ticket} {s s' : Signals} {hits : List Hit}

/-- What is asked of bodies. -/
def Request.needles (request : Request) : List Needle := request.filters.filterMap Needle.ofFilter?

theorem Request.exists_isText (h : request.needles.isEmpty = false) :
    ∃ f ∈ request.filters, f.isText = true := by
  simp only [needles, List.isEmpty_eq_false_iff, ne_eq, List.filterMap_eq_nil_iff, not_forall] at h
  obtain ⟨f, hf, hneedle⟩ := h
  refine ⟨f, hf, ?_⟩
  by_contra htext
  exact hneedle (by rw [Needle.ofFilter?, if_neg htext])

/-- The candidates that are kept; without conditions on bodies all of them are. -/
def Request.kept (request : Request) (read : String → Except Vault.Fault String)
    (candidates : List Hit) : List Hit :=
  if request.needles.isEmpty then candidates
  else candidates.filter (Needle.allPassAt request.needles read ·.path)

theorem Request.kept_sublist (request : Request) (read : String → Except Vault.Fault String)
    (candidates : List Hit) : (request.kept read candidates).Sublist candidates := by
  unfold kept
  split
  · exact .refl candidates
  · exact List.filter_sublist

/-- Where all bodies can be read, it makes no difference that none are if nothing is asked. -/
theorem Request.kept_eq {candidates : List Hit}
    (hread : ∀ hit ∈ candidates, ∃ body, read hit.path = .ok body) :
    request.kept read candidates =
      candidates.filter (Needle.allPassAt request.needles read ·.path) := by
  unfold kept
  split
  · next hnone =>
    refine (List.filter_eq_self.2 fun hit hhit => ?_).symm
    obtain ⟨body, hbody⟩ := hread hit hhit
    rw [Needle.allPassAt, hbody, List.isEmpty_iff.1 hnone]
    rfl
  · rfl

/-- The hits are the candidates that are kept, in the order that is asked for. -/
def Request.Finds (request : Request) (backend : Backend)
    (read : String → Except Vault.Fault String) (hits : List Hit) : Prop :=
  backend.available = true ∧ ∃ candidates,
    backend.answer (Query.compile request.filters) = .ok candidates ∧
    hits = sortHits request.sort (request.kept read candidates)

/-- The stages that a run which succeeds has gone through. -/
theorem yields_run_iff :
    Yields (run backend course request ticket) s hits s' ↔
      backend.available = true ∧
      ticket.isCancelled (Signals.notices course.beforeQuery s).version = false ∧
      ∃ candidates, backend.answer (Query.compile request.filters) = .ok candidates ∧
        ticket.isCancelled
          (Signals.notices (course.beforeQuery + course.duringQuery) s).version = false ∧
        ∃ kept s₁,
          Yields
            (if request.needles.isEmpty then pure candidates
              else matchText candidates request.needles request.limit ticket
                (course.arrivals candidates))
            (Signals.notices (course.beforeQuery + course.duringQuery) s) kept s₁ ∧
          ticket.isCancelled (Signals.notices course.afterReads s₁).version = false ∧
          Signals.notices course.afterReads s₁ = s' ∧ sortHits request.sort kept = hits := by
  have hneedles : request.filters.filterMap Needle.ofFilter? = request.needles := rfl
  simp only [run, hneedles]
  cases backend.available with
  | false => simp
  | true =>
    cases backend.answer (Query.compile request.filters) with
    | error fault => simp [yields_bind_iff]
    | ok candidates =>
      cases request.needles.isEmpty with
      | false => simp [yields_bind_iff, yields_map_iff, and_assoc]
      | true => simp [yields_bind_iff, yields_map_iff, and_assoc, Nat.add_assoc]

/-! ## Courses of a run -/

/-- The candidate whose reader has sent this, if one has. -/
def Arrival.index? : Arrival → Option Nat
  | .read index _ => some index
  | .silence | .closed => none

section
variable {outcomes : List (Except Vault.Fault String)} {received : List (Nat × Arrival)}

/-- What is received are these outcomes of the readers, each once, in any order and among any
notices. -/
def ArriveInSomeOrder (outcomes : List (Except Vault.Fault String))
    (received : List (Nat × Arrival)) : Prop :=
  (received.map (·.2)).Perm (outcomes.zipIdx.map fun (outcome, index) => .read index outcome)

/-- Whatever is received is the outcome of one of the readers, -/
theorem ArriveInSomeOrder.exists_of_mem (h : ArriveInSomeOrder outcomes received)
    {a : Nat × Arrival} (ha : a ∈ received) :
    ∃ index outcome, a.2 = .read index outcome ∧ outcomes[index]? = some outcome := by
  have hsent := (List.Perm.mem_iff h).1 (List.mem_map_of_mem ha)
  obtain ⟨⟨outcome, index⟩, houtcome, hread⟩ := List.mem_map.1 hsent
  exact ⟨index, outcome, hread.symm, List.mem_zipIdx_iff_getElem?.1 houtcome⟩

/-- and no reader sends twice. -/
theorem ArriveInSomeOrder.nodup (h : ArriveInSomeOrder outcomes received) :
    (received.filterMap (·.2.index?)).Nodup := by
  have hperm := List.Perm.filterMap Arrival.index? h
  rw [List.filterMap_map, List.filterMap_map] at hperm
  have hindices : outcomes.zipIdx.filterMap
      (Arrival.index? ∘ fun (outcome, index) => .read index outcome) =
        outcomes.zipIdx.map Prod.snd := by
    rw [← List.filterMap_eq_map]
    rfl
  rw [hindices, List.zipIdx_map_snd] at hperm
  exact hperm.nodup_iff.2 List.nodup_range'

theorem ArriveInSomeOrder.length_eq (h : ArriveInSomeOrder outcomes received) :
    received.length = outcomes.length := by
  simpa using List.Perm.length_eq h

end

/-- What a run waits for, which is as much as there are candidates. -/
def Course.received (course : Course) (candidates : List Hit) : List (Nat × Arrival) :=
  (course.arrivals candidates).take candidates.length

/-- Each reader sends at most once, and a body that it sends is the one of its candidate. Anything
else may happen: readers may fail or say nothing, in any order and among any notices. -/
structure Course.IsFaithful (course : Course) (candidates : List Hit)
    (read : String → Except Vault.Fault String) : Prop where
  once : ((course.received candidates).filterMap (·.2.index?)).Nodup
  bodies : ∀ arrival ∈ course.received candidates, ∀ index body,
    arrival.2 = .read index (.ok body) →
      ∃ hit, candidates[index]? = some hit ∧ read hit.path = .ok body

/-- Each reader sends at most once, and what it sends is what is read of its candidate. It may say
nothing, and everything may happen in any order and among any notices. -/
structure Course.SendsWhatIsRead (course : Course) (candidates : List Hit)
    (read : String → Except Vault.Fault String) : Prop where
  once : ((course.received candidates).filterMap (·.2.index?)).Nodup
  outcomes : ∀ arrival ∈ course.received candidates, ∀ index outcome,
    arrival.2 = .read index outcome →
      ∃ hit, candidates[index]? = some hit ∧ read hit.path = outcome

theorem Course.SendsWhatIsRead.isFaithful {course : Course} {candidates : List Hit}
    (h : course.SendsWhatIsRead candidates read) : course.IsFaithful candidates read where
  once := h.once
  bodies arrival hmem index body := h.outcomes arrival hmem index (.ok body)

/-- Every reader sends what is read, in any order. -/
def Course.Delivers (course : Course) (candidates : List Hit)
    (read : String → Except Vault.Fault String) : Prop :=
  ((course.received candidates).map (·.2)).Perm
    (candidates.zipIdx.map fun (hit, index) => .read index (read hit.path))

/-- How many notices arrive from the start of a run to its end. -/
def Course.noticesOfRun (course : Course) (candidates : List Hit) : Nat :=
  course.beforeQuery + course.duringQuery + noticesBefore (course.received candidates)
    + course.afterReads

variable {candidates : List Hit}

theorem Course.Delivers.arriveInSomeOrder (h : course.Delivers candidates read) :
    ArriveInSomeOrder (candidates.map (read ·.path)) (course.received candidates) := by
  unfold ArriveInSomeOrder
  rw [List.zipIdx_map, List.map_map]
  exact h

theorem Course.Delivers.sendsWhatIsRead (h : course.Delivers candidates read) :
    course.SendsWhatIsRead candidates read where
  once := h.arriveInSomeOrder.nodup
  outcomes arrival hmem index outcome heq := by
    obtain ⟨i, sent, hsent, houtcome⟩ := h.arriveInSomeOrder.exists_of_mem hmem
    rw [heq] at hsent
    simp only [Arrival.read.injEq] at hsent
    obtain ⟨rfl, rfl⟩ := hsent
    rwa [List.getElem?_map, Option.map_eq_some_iff] at houtcome

/-- If all that is received in a faithful course are bodies, then they are those of different
candidates. -/
theorem Course.IsFaithful.deliveries (h : course.IsFaithful candidates read)
    {deliveries : List Delivery}
    (hreceived : course.received candidates = deliveries.map (·.arrival)) :
    (deliveries.map (·.index)).Nodup ∧ ∀ d ∈ deliveries, d.IsOf candidates read := by
  constructor
  · have honce := h.once
    rw [hreceived, List.filterMap_map] at honce
    rw [← List.filterMap_eq_map]
    exact honce
  · intro d hd
    refine h.bodies d.arrival ?_ d.index d.body rfl
    rw [hreceived]
    exact List.mem_map_of_mem hd

/-- Whatever happens in a faithful course, a run that succeeds has found what was asked for. -/
theorem finds_of_yields
    (hfaithful : ∀ candidates, backend.answer (Query.compile request.filters) = .ok candidates →
      course.IsFaithful candidates read)
    (h : Yields (run backend course request ticket) s hits s') :
    request.Finds backend read hits := by
  obtain ⟨havailable, -, candidates, hanswer, -, kept, s₁, hkept, -, -, rfl⟩ := yields_run_iff.1 h
  refine ⟨havailable, candidates, hanswer, ?_⟩
  unfold Request.kept
  split at hkept
  · next hnone =>
    rw [if_pos hnone, (yields_pure_iff.1 hkept).1]
  · next hsome =>
    obtain ⟨verdicts, hreceive, rfl⟩ := yields_map_iff.1 hkept
    obtain ⟨deliveries, hreceived, hlength, rfl⟩ := deliveries_of_receive hreceive
    obtain ⟨hdistinct, hof⟩ := (hfaithful candidates hanswer).deliveries hreceived
    rw [if_neg hsome, List.append_nil, passing_verdicts hlength hdistinct hof]

/-- If every body can be read, then all that is received are bodies, one for each candidate. -/
theorem Course.Delivers.exists_deliveries (h : course.Delivers candidates read)
    (hread : ∀ hit ∈ candidates, ∃ body, read hit.path = .ok body) :
    ∃ deliveries : List Delivery, course.received candidates = deliveries.map (·.arrival) ∧
      deliveries.length = candidates.length := by
  have hbody : ∀ arrival ∈ course.received candidates, arrival ∈ Set.range Delivery.arrival := by
    rintro ⟨notices, arrival⟩ hmem
    have hsent := (List.Perm.mem_iff h).1 (List.mem_map_of_mem hmem)
    obtain ⟨⟨hit, index⟩, hhit, rfl⟩ := List.mem_map.1 hsent
    obtain ⟨body, hbody⟩ := hread hit (List.fst_mem_of_mem_zipIdx hhit)
    refine ⟨⟨notices, index, body⟩, ?_⟩
    simp [Delivery.arrival, hbody]
  obtain ⟨deliveries, hdeliveries⟩ := Delivery.exists_map_arrival hbody
  refine ⟨deliveries, hdeliveries, ?_⟩
  have hlength := List.Perm.length_eq h
  simpa [hdeliveries] using hlength

/-- A run is left alone: the bodies that it needs are delivered, and its ticket is good for as long
as it takes. -/
structure Course.IsSmooth (course : Course) (backend : Backend) (request : Request)
    (read : String → Except Vault.Fault String) (ticket : Ticket) (s : Signals) : Prop where
  delivers : ∀ candidates, backend.answer (Query.compile request.filters) = .ok candidates →
    request.needles.isEmpty = false → course.Delivers candidates read
  lasts : ∀ candidates, backend.answer (Query.compile request.filters) = .ok candidates →
    ticket.Lasts s (course.noticesOfRun candidates)

/-- The course in which every reader sends at once and in turn, and nothing else happens. -/
def Course.prompt (read : String → Except Vault.Fault String) : Course where
  arrivals candidates := candidates.zipIdx.map fun (hit, index) => (0, .read index (read hit.path))

theorem Course.received_prompt : (prompt read).received candidates =
    candidates.zipIdx.map fun (hit, index) => (0, .read index (read hit.path)) :=
  List.take_of_length_le (by simp [prompt])

theorem Course.delivers_prompt : (prompt read).Delivers candidates read := by
  unfold Delivers
  rw [received_prompt, List.map_map]
  exact .refl _

theorem Course.eq_zero_of_mem_prompt {a : Nat × Arrival}
    (h : a ∈ (prompt read).received candidates) : a.1 = 0 := by
  obtain ⟨_, _, rfl⟩ := List.mem_map.1 (List.mem_of_mem_take h)
  rfl

theorem Course.isSmooth_prompt (h : ticket.Lasts s 0) :
    (prompt read).IsSmooth backend request read ticket s where
  delivers _ _ _ := delivers_prompt
  lasts candidates _ := by
    have hquiet : (prompt read).noticesOfRun candidates = 0 := by
      have hnone : noticesBefore ((prompt read).received candidates) = 0 :=
        noticesBefore_eq_zero fun _ ha => eq_zero_of_mem_prompt ha
      rw [noticesOfRun, hnone]
      rfl
    rw [hquiet]
    exact h

/-- If the ticket is good all the time, and as many bodies come as there are candidates where any
are needed, then a run succeeds. -/
theorem yields_of_deliveries (havailable : backend.available = true)
    (hanswer : backend.answer (Query.compile request.filters) = .ok candidates)
    (hlasts : ticket.Lasts s (course.noticesOfRun candidates))
    (hsends : request.needles.isEmpty = false → course.IsFaithful candidates read)
    (hcome : request.needles.isEmpty = false → ∃ deliveries : List Delivery,
      course.received candidates = deliveries.map (·.arrival) ∧
        deliveries.length = candidates.length) :
    ∃ s', Yields (run backend course request ticket) s
      (sortHits request.sort (request.kept read candidates)) s' := by
  unfold Course.noticesOfRun at hlasts
  -- the ticket is good wherever the run looks at it, however many notices the readers bring
  have hquery := hlasts course.beforeQuery (by omega)
  have hanswered : ticket.Lasts (Signals.notices (course.beforeQuery + course.duringQuery) s)
      (noticesBefore (course.received candidates) + course.afterReads) :=
    (hlasts.mono (by omega)).after
  have hafter : ∀ n ≤ noticesBefore (course.received candidates), ticket.isCancelled
      (Signals.notices course.afterReads (Signals.notices n
        (Signals.notices (course.beforeQuery + course.duringQuery) s))).version = false :=
    fun n hn => (hanswered.mono (Nat.add_le_add_right hn _)).after _ le_rfl
  unfold Request.kept
  cases hneedles : request.needles.isEmpty with
  | true =>
    refine ⟨_, yields_run_iff.2 ⟨havailable, hquery, candidates, hanswer,
      hanswered 0 (Nat.zero_le _), candidates, _, ?_, hafter 0 (Nat.zero_le _), rfl, rfl⟩⟩
    simp [hneedles]
  | false =>
    obtain ⟨deliveries, hreceived, hlength⟩ := hcome hneedles
    obtain ⟨hdistinct, hof⟩ := (hsends hneedles).deliveries hreceived
    have hgood : ticket.Lasts (Signals.notices (course.beforeQuery + course.duringQuery) s)
        (noticesBefore (deliveries.map (·.arrival))) :=
      hreceived ▸ hanswered.mono (Nat.le_add_right _ _)
    have harrivals : course.arrivals candidates =
        deliveries.map (·.arrival) ++ (course.arrivals candidates).drop candidates.length := by
      rw [← hreceived]
      exact (List.take_append_drop _ _).symm
    refine ⟨_, yields_run_iff.2 ⟨havailable, hquery, candidates, hanswer,
      hanswered 0 (Nat.zero_le _), _, _, ?_, hafter _ (by rw [hreceived]), rfl, rfl⟩⟩
    rw [if_neg (by simp [hneedles]), if_neg (by simp)]
    refine yields_map_iff.2 ⟨_, ?_, passing_verdicts hlength hdistinct hof⟩
    rw [harrivals, ← List.append_nil (List.reverse _)]
    exact hlength ▸ yields_receive hgood

/-- A run that is left alone finds what is asked for. -/
theorem yields_of_finds (hsmooth : course.IsSmooth backend request read ticket s)
    (hread : ∀ candidates, backend.answer (Query.compile request.filters) = .ok candidates →
      ∀ hit ∈ candidates, ∃ body, read hit.path = .ok body)
    (h : request.Finds backend read hits) :
    ∃ s', Yields (run backend course request ticket) s hits s' := by
  obtain ⟨havailable, candidates, hanswer, rfl⟩ := h
  have hdelivers := hsmooth.delivers candidates hanswer
  exact yields_of_deliveries havailable hanswer (hsmooth.lasts candidates hanswer)
    (fun hneedles => (hdelivers hneedles).sendsWhatIsRead.isFaithful)
    (fun hneedles => (hdelivers hneedles).exists_deliveries (hread candidates hanswer))

/-! ## Runs without conditions on bodies -/

/-- Whatever the signals are, the part ends with this value, or it is superseded. -/
def Gives {α : Type} (x : RunM α) (a : α) : Prop :=
  ∀ s, (endOf x s).1 = .ok a ∨ (endOf x s).1 = .error .superseded

section
variable {α β : Type}

theorem gives_pure (a : α) : Gives (pure a) a := fun _ => .inl rfl

theorem gives_arrive (n : Nat) : Gives (arrive n) () := fun _ => .inl rfl

theorem gives_check (ticket : Ticket) : Gives (check ticket) () := by
  intro s
  rw [endOf_check]
  split
  · exact .inr rfl
  · exact .inl rfl

theorem Gives.bind {x : RunM α} {f : α → RunM β} {a : α} {b : β} (h : Gives x a)
    (h' : Gives (f a) b) : Gives (x >>= f) b := by
  intro s
  rw [endOf_bind]
  have hx := h s
  rcases hend : endOf x s with ⟨fault | a', s₁⟩
  · rw [hend] at hx
    obtain rfl : fault = .superseded := Except.error.inj (hx.resolve_left nofun)
    exact .inr rfl
  · rw [hend] at hx
    obtain rfl : a' = a := Except.ok.inj (hx.resolve_right nofun)
    exact h' s₁

end

/-- A run that reads no bodies can only give the candidates, in order. -/
theorem gives_run (havailable : backend.available = true) (hneedles : request.needles = [])
    (hanswer : backend.answer (Query.compile request.filters) = .ok candidates) :
    Gives (run backend course request ticket) (sortHits request.sort candidates) := by
  have hnone : request.filters.filterMap Needle.ofFilter? = [] := hneedles
  simp only [run, havailable, hnone, hanswer]
  exact (gives_arrive _).bind <| (gives_check _).bind <| (gives_arrive _).bind <|
    (gives_pure _).bind <| (gives_check _).bind <| (gives_pure _).bind <|
    (gives_arrive _).bind <| (gives_check _).bind <| gives_pure _

end NoteSearch.Search

import NoteSearch.Proofs.Search.Joining
import NoteSearch.Proofs.Workspace.Courses
import NoteSearch.Proofs.Workspace.Snapshots

/-!
# What a search reads

Reading one body does not change what is read of the others, whichever kind of vault they are in.
So what the readers of a search send can be told from the start, one candidate at a time; and
a search comes out the same in all workspaces that answer its query alike and have the same of the
bodies that it reads.
-/
namespace NoteSearch
open Search

/-- What was read of a path makes no difference to what is read afterwards. -/
theorem Store.read_read (s : Store) (path later : String) :
    ((s.read path).2.read later).1 = (s.read later).1 := by
  cases s with
  | memory vault => rfl
  | folder vault disk => exact vault.read_read disk path later

namespace Workspace

variable {w w' : Workspace} {own : Option Nat} {path : String} {request : Request}
  {candidates : List Hit}

/-! ## Notices outside of any session -/

theorem exists_notify (w : Workspace) (number : Nat) :
    ∃ sessions, (w.notify number).2 = { w with sessions } := by
  unfold notify
  split
  · exact ⟨_, rfl⟩
  · exact ⟨w.sessions, rfl⟩

/-- A notice that waits for a query changes sessions, and is not counted. -/
theorem exists_fireOnQuery_none (w : Workspace) :
    ∃ sessions onQuery, w.fireOnQuery none = (0, { w with sessions, onQuery }) := by
  unfold fireOnQuery
  split
  · next number _ =>
    obtain ⟨sessions, hnotify⟩ := exists_notify { w with onQuery := none } number
    exact ⟨sessions, none, Prod.ext rfl hnotify⟩
  · exact ⟨w.sessions, w.onQuery, rfl⟩

/-- Nor is one that waits for a body. -/
theorem exists_fireOnRead_none (w : Workspace) (path : String) :
    ∃ sessions onRead, w.fireOnRead none path = (0, { w with sessions, onRead }) := by
  unfold fireOnRead
  split
  · next awaited number _ =>
    split
    · obtain ⟨sessions, hnotify⟩ := exists_notify { w with onRead := none } number
      exact ⟨sessions, none, Prod.ext rfl hnotify⟩
    · exact ⟨w.sessions, w.onRead, rfl⟩
  · exact ⟨w.sessions, w.onRead, rfl⟩

/-! ## What readers send -/

/-- What the reader of a path sends, if it sends anything. -/
def sends (w : Workspace) (path : String) : Option (Except Vault.Fault String) :=
  match w.troubles.lookup path with
  | none => some (w.reads path)
  | some (.fails why) => some (.error (.unreadable path why))
  | some .stalls | some .vanishes => none

theorem sends_congr (htroubles : w'.troubles = w.troubles) (hreads : w'.reads = w.reads) :
    w'.sends = w.sends := by
  unfold sends
  rw [htroubles, hreads]

/-- A reader changes nothing of what readers send. -/
theorem readFor_none (w : Workspace) (path : String) :
    ∃ w', w.readFor none path = (0, w.sends path, w') ∧ w'.sends = w.sends := by
  obtain ⟨sessions, onRead, hfired⟩ := w.exists_fireOnRead_none path
  unfold readFor
  rw [hfired]
  cases htrouble : w.troubles.lookup path with
  | none =>
    refine ⟨{ w with sessions, onRead, store := (w.store.read path).2 }, ?_, ?_⟩
    · simp only [htrouble, sends]
      rfl
    · exact sends_congr rfl (funext (w.store.read_read path))
  | some trouble =>
    refine ⟨{ w with sessions, onRead }, ?_, sends_congr rfl rfl⟩
    cases trouble <;> simp only [htrouble, sends]

/-- What arrives from the readers of candidates that are numbered from an index on. -/
def sent (w : Workspace) (index : Nat) : List Hit → List (Nat × Arrival)
  | [] => []
  | hit :: rest =>
    ((w.sends hit.path).map fun outcome => (0, .read index outcome)).toList ++
      w.sent (index + 1) rest

theorem sent_congr (h : ∀ hit ∈ candidates, w'.sends hit.path = w.sends hit.path) (index : Nat) :
    w'.sent index candidates = w.sent index candidates := by
  induction candidates generalizing index with
  | nil => rfl
  | cons hit candidates ih =>
    obtain ⟨hhit, hrest⟩ := List.forall_mem_cons.1 h
    rw [sent, sent, hhit, ih hrest]

theorem readAll_none (w : Workspace) (last : Arrival) (index : Nat) (candidates : List Hit) :
    (w.readAll none last index 0 candidates).1 = w.sent index candidates ++ [(0, last)] := by
  induction candidates generalizing w index with
  | nil => rfl
  | cons hit candidates ih =>
    obtain ⟨w', hread, hsends⟩ := w.readFor_none hit.path
    have hrest := ih w' (index + 1)
    rw [sent_congr (fun hit _ => congrFun hsends hit.path)] at hrest
    rw [sent, readAll, hread]
    cases w.sends hit.path with
    | none => exact hrest
    | some outcome => exact congrArg ((0, Arrival.read index outcome) :: ·) hrest

/-- All that arrives at a search outside of any session: what the readers of the candidates send, in
turn, and then nothing or the news that no reader is left. -/
def arrivals (w : Workspace) (candidates : List Hit) : List (Nat × Arrival) :=
  let stalled := w.isStalled (candidates.map (·.path))
  w.sent 0 candidates ++ [(0, if stalled then .silence else .closed)]

/-- Two workspaces have the same of some candidates: what is wrong with their readers, if anything,
and what is read of them. -/
structure Agree (w w' : Workspace) (candidates : List Hit) : Prop where
  troubles : ∀ hit ∈ candidates, w'.troubles.lookup hit.path = w.troubles.lookup hit.path
  reads : ∀ hit ∈ candidates, w'.reads hit.path = w.reads hit.path

theorem Agree.arrivals (h : Agree w w' candidates) :
    w'.arrivals candidates = w.arrivals candidates := by
  have hsends : ∀ hit ∈ candidates, w'.sends hit.path = w.sends hit.path := by
    intro hit hhit
    rw [sends, sends, h.troubles hit hhit, h.reads hit hhit]
  have hstalled : w'.isStalled (candidates.map (·.path)) =
      w.isStalled (candidates.map (·.path)) := by
    rw [Outside.isStalled, Outside.isStalled, List.any_map, List.any_map, Bool.eq_iff_iff,
      List.any_eq_true, List.any_eq_true]
    refine exists_congr fun hit => and_congr_right fun hhit => ?_
    rw [Function.comp_apply, Function.comp_apply, h.troubles hit hhit]
  rw [Workspace.arrivals, Workspace.arrivals, sent_congr hsends, hstalled]

/-- Nothing happens around a run outside of any session, but that bodies arrive if it has asked for
them. -/
theorem exists_course_none (w : Workspace) (request : Request) :
    ∃ sent, (w.course none request).1 = { arrivals := sent } ∧
      ∀ candidates, w.backend.available = true →
        w.backend.answer (Query.compile request.filters) = .ok candidates →
        (∃ f ∈ request.filters, f.isText = true) → sent candidates = w.arrivals candidates := by
  obtain ⟨sessions, onQuery, hfired⟩ := w.exists_fireOnQuery_none
  unfold course
  cases havailable : w.isAvailable with
  | false =>
    refine ⟨fun _ => [], rfl, fun candidates (h : w.isAvailable = true) => ?_⟩
    rw [havailable] at h
    cases h
  | true =>
    have hanswers : answer { w with sessions, onQuery } = w.answer := rfl
    simp only [Bool.not_true, Bool.false_eq_true, if_false, hfired, hanswers, Nat.lt_irrefl,
      decide_false, Bool.false_or]
    change ∃ sent, _ ∧ ∀ candidates, _ → w.answer (Query.compile request.filters) = _ → _
    cases w.answer (Query.compile request.filters) with
    | error fault => exact ⟨fun _ => [], rfl, fun _ _ h => by cases h⟩
    | ok candidates =>
      by_cases htext : ∃ f ∈ request.filters, f.isText = true
      · have hasks : (request.filters.all fun f => !f.isText) = false := by
          simpa using htext
        simp only [hasks, Bool.false_eq_true, if_false, readAll_none]
        refine ⟨_, rfl, fun found _ hfound _ => ?_⟩
        obtain rfl := Except.ok.inj hfound
        exact Agree.arrivals ⟨fun _ _ => rfl, fun _ _ => rfl⟩
      · have hasks : (request.filters.all fun f => !f.isText) = true := by
          simpa using htext
        simp only [hasks, if_true]
        exact ⟨fun _ => [], rfl, fun _ _ _ h => absurd h htext⟩

theorem run_course_none (w : Workspace) (request : Request) (ticket : Ticket) :
    run w.backend (w.course none request).1 request ticket =
      run w.backend { arrivals := w.arrivals } request ticket := by
  obtain ⟨sent, hcourse, hsent⟩ := w.exists_course_none request
  rw [hcourse]
  exact @run_with_arrivals ticket w.backend request { arrivals := w.arrivals } _ _ hsent

/-! ## What a search does not depend on -/

/-- A search depends on the answer to its query and, if there are filters on text, on what is read
of the candidates. -/
theorem search_congr (hbackend : w'.backend = w.backend)
    (h : ∀ candidates, w.answer (Query.compile request.filters) = .ok candidates →
      (∃ f ∈ request.filters, f.isText = true) → Agree w w' candidates) (cancelled : Bool) :
    w'.search request cancelled = w.search request cancelled := by
  have hrun (ticket : Ticket) : run w'.backend (w'.course none request).1 request ticket =
      run w.backend (w.course none request).1 request ticket := by
    rw [run_course_none, run_course_none, hbackend]
    exact @run_with_arrivals ticket w.backend request { arrivals := w.arrivals } _ _
      fun candidates _ hanswer htext => (h candidates hanswer htext).arrivals
  unfold search
  simp only [hrun]

/-- The outcomes of the readers of some candidates may arrive in any order, each before the ticket
is cancelled. If all of them are bodies, the join keeps exactly the candidates whose bodies every
filter allows, in their order; if any is a failure, the join fails with the first of them to arrive.
What a run comes to depends on no body but those of its candidates, and on none if there is no
filter on text, whatever happens around it; and neither does a search in a workspace. -/
theorem bodies_join_in_any_order {outcomes : List (Except Vault.Fault String)}
    {received : List (Nat × Arrival)} {ticket : Ticket} {s : Signals}
    (hlength : outcomes.length = candidates.length)
    (hany : ArriveInSomeOrder outcomes received)
    (hlasts : ticket.Lasts s (noticesBefore received)) :
    (∀ (filters : List Filter) (limit : Nat) (rest : List (Nat × Arrival)),
      (∀ bodies, outcomes = bodies.map .ok →
        (endOf (matchText candidates (filters.filterMap Needle.ofFilter?) limit ticket
          (received ++ rest)) s).1 =
            .ok (((candidates.zip bodies).filter fun pair => ∀ f ∈ filters, f.Allows pair.2).map
              (·.1))) ∧
      ((∃ fault, .error fault ∈ outcomes) →
        ∃ notices index fault hit,
          received.find? (·.2.isFailure) = some (notices, .read index (.error fault)) ∧
          candidates[index]? = some hit ∧ outcomes[index]? = some (.error fault) ∧
          (endOf (matchText candidates (filters.filterMap Needle.ofFilter?) limit ticket
            (received ++ rest)) s).1 = .error (.fetch hit.path fault))) ∧
    (∀ (backend : Backend) (course : Course) (request : Request) (ticket : Ticket)
        (read read' : String → Except Vault.Fault String),
      (∀ found, backend.answer (Query.compile request.filters) = .ok found →
        (∃ f ∈ request.filters, f.isText = true) → ∀ hit ∈ found, read hit.path = read' hit.path) →
      run backend (course.reading read) request ticket =
        run backend (course.reading read') request ticket) ∧
    ∀ (w w' : Workspace) (request : Request) (cancelled : Bool), w'.backend = w.backend →
      (∀ found, w.answer (Query.compile request.filters) = .ok found →
        (∃ f ∈ request.filters, f.isText = true) → Agree w w' found) →
      w'.search request cancelled = w.search request cancelled := by
  refine ⟨fun filters limit rest => ⟨fun bodies hbodies => ?_, ?_⟩, ?_, ?_⟩
  · subst hbodies
    rw [List.length_map] at hlength
    rw [endOf_matchText_of_bodies hlength hany hlasts]
    simp only [← allPass_iff, Bool.decide_eq_true]
  · exact endOf_matchText_of_failure hlength hany hlasts
  · exact fun backend course request ticket read read' h => run_reading_congr course h
  · exact fun w w' request cancelled hbackend h => search_congr hbackend h cancelled

/-- Of three candidates the last and the second cannot be read, which is heard in this order. -/
theorem third_of_three_fails_first :
    (endOf (matchText
      [⟨"a", "a.md", 1, {}, {}, "", 0⟩, ⟨"b", "b.md", 1, {}, {}, "", 0⟩,
        ⟨"c", "c.md", 1, {}, {}, "", 0⟩]
      [⟨['x'], false⟩] 5000 .unlimited
      [(0, .read 2 (.error (.unreadable "c.md" "gone"))), (1, .read 0 (.ok "x")),
        (0, .read 1 (.error (.notFound "b.md")))]) {}).1 =
      .error (.fetch "c.md" (.unreadable "c.md" "gone")) := by
  have hjoin := ((@bodies_join_in_any_order
    [⟨"a", "a.md", 1, {}, {}, "", 0⟩, ⟨"b", "b.md", 1, {}, {}, "", 0⟩,
      ⟨"c", "c.md", 1, {}, {}, "", 0⟩]
    [.ok "x", .error (.notFound "b.md"), .error (.unreadable "c.md" "gone")]
    [(0, .read 2 (.error (.unreadable "c.md" "gone"))), (1, .read 0 (.ok "x")),
      (0, .read 1 (.error (.notFound "b.md")))] .unlimited {} rfl
    ((List.Perm.swap _ _ _).trans (.cons _ (.swap _ _ _))) (Ticket.lasts_unlimited {} _)).1
    [{ probe := .text, value := "x" }] 5000 []).2 ⟨_, List.mem_cons_of_mem _ List.mem_cons_self⟩
  obtain ⟨notices, index, fault, hit, hfirst, hhit, -, hend⟩ := hjoin
  cases hfirst
  cases hhit
  exact hend

end Workspace
end NoteSearch

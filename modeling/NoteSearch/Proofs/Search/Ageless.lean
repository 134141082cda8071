import NoteSearch.Proofs.Search.Run
import NoteSearch.Proofs.Vault.Ageless

/-!
# Runs do not look at creation times

A run looks at the paths of its candidates, at their bodies and at what they are sorted by. When
they were created it only passes on.
-/
namespace NoteSearch.Search

/-- The backend as if nothing was known about when notes were created. -/
def Backend.ageless (backend : Backend) : Backend where
  available := backend.available
  answer query := (backend.answer query).map (List.map Hit.ageless)

variable (candidates : List Hit) (needles : List Needle) (limit : Nat) (ticket : Ticket)

theorem pathAt_ageless (index : Nat) :
    pathAt (candidates.map Hit.ageless) index = pathAt candidates index := by
  rw [pathAt, List.getElem?_map, Option.map_map, pathAt]
  rfl

theorem firstPending_ageless (verdicts : Verdicts) :
    firstPending (candidates.map Hit.ageless) verdicts = firstPending candidates verdicts := by
  rw [firstPending, pathAt_ageless, List.length_map, firstPending]

theorem receive_ageless (n : Nat) (arrivals : List (Nat × Arrival)) (verdicts : Verdicts) :
    receive (candidates.map Hit.ageless) needles limit ticket n arrivals verdicts =
      receive candidates needles limit ticket n arrivals verdicts := by
  induction n generalizing arrivals verdicts with
  | zero => rfl
  | succ n ih =>
    cases arrivals with
    | nil => simp only [receive, firstPending_ageless]
    | cons a rest =>
      obtain ⟨notices, arrival⟩ := a
      simp only [receive, firstPending_ageless, pathAt_ageless, ih]

theorem passing_ageless (verdicts : Verdicts) :
    passing (candidates.map Hit.ageless) verdicts =
      (passing candidates verdicts).map Hit.ageless := by
  rw [passing, List.zipIdx_map, List.filter_map, List.map_map, passing, List.map_map]
  rfl

theorem matchText_ageless (arrivals : List (Nat × Arrival)) :
    matchText (candidates.map Hit.ageless) needles limit ticket arrivals =
      List.map Hit.ageless <$> matchText candidates needles limit ticket arrivals := by
  have hpassing : passing (candidates.map Hit.ageless) =
      List.map Hit.ageless ∘ passing candidates :=
    funext (passing_ageless candidates)
  rw [matchText, receive_ageless, List.length_map, hpassing, comp_map, matchText]

theorem sortHits_ageless (choice : Option SortChoice) (hits : List Hit) :
    sortHits choice (hits.map Hit.ageless) = (sortHits choice hits).map Hit.ageless := by
  refine (List.map_mergeSort fun a _ b _ => ?_).symm
  unfold SortChoice.order SortKey.order
  cases (choice.getD {}).key <;> rfl

/-- Whether creation times are forgotten before a run or after it makes no difference. -/
theorem run_ageless (backend : Backend) (course : Course) (request : Request)
    (h : ∀ candidates, course.arrivals (candidates.map Hit.ageless) = course.arrivals candidates) :
    run backend.ageless course request ticket =
      List.map Hit.ageless <$> run backend course request ticket := by
  have havailable : backend.ageless.available = backend.available := rfl
  have hanswer (query : String) :
      backend.ageless.answer query = (backend.answer query).map (List.map Hit.ageless) := rfl
  unfold run
  rw [havailable, hanswer]
  cases backend.available with
  | false => rfl
  | true =>
    simp only [Bool.not_true, Bool.false_eq_true, if_false]
    cases backend.answer (Query.compile request.filters) with
    | error fault => simp only [Except.map, map_bind, throw_bind, map_throw]
    | ok candidates =>
      cases (request.filters.filterMap Needle.ofFilter?).isEmpty with
      | true => simp only [Except.map, map_bind, pure_bind, map_pure, sortHits_ageless, if_true]
      | false =>
        simp only [Except.map, map_bind, pure_bind, map_pure, sortHits_ageless, h,
          matchText_ageless, bind_map_left, Bool.false_eq_true, if_false]

end NoteSearch.Search

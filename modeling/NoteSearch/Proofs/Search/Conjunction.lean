import NoteSearch.Proofs.Filter.Meaning
import NoteSearch.Proofs.Search.Run
import NoteSearch.Proofs.Search.Sorting
import NoteSearch.Proofs.Search.Waiting
import NoteSearch.Proofs.Vault.Answers

/-!
# A search finds what all filters mean

A run on a vault in memory goes through a query, terms, the catalogue, bodies and a sort. What comes
out are the documents that every filter means, or does not mean if it is reversed, in the
order that is asked for.
-/
namespace NoteSearch
open Search Vault Text

namespace Vault.Memory

variable {m : Memory} {d : Document} {filters : List Filter} {terms : List Query.Term}

/-- The vault as what answers queries. -/
def backend (m : Memory) : Backend := ⟨true, m.catalogue.answer⟩

/-- What is shown of a document. -/
def hitOf (m : Memory) (d : Document) : Hit := m.catalogue.hit d.note

/-- The documents that every filter means, or does not mean if it is reversed. -/
def meant (m : Memory) (filters : List Filter) : List Document :=
  m.documents.filter fun d => filters.all fun f => decide (f.Means m d) != f.reversed

/-! ## Candidates -/

/-- The notes that are selected are those of the documents of which all terms hold. -/
theorem select_perm (m : Memory) (terms : List Query.Term) :
    (m.catalogue.select terms).Perm
      ((m.documents.filter fun d => terms.all fun t =>
        m.catalogue.holds (m.entry d) t != t.negated).map m.hitOf) := by
  have hperm := (m.entries_perm.filter fun e =>
    terms.all fun t => m.catalogue.holds e t != t.negated).map fun e => m.catalogue.hit e.note
  rw [List.filter_map, List.map_map] at hperm
  exact hperm

/-! ## All filters together -/

/-- The terms and the conditions on bodies say of a document what the filters mean. -/
theorem all_terms_and_needles (hd : d ∈ m.documents) :
    ((filters.filterMap Query.Term.ofFilter?).all (fun t =>
        m.catalogue.holds (m.entry d) t != t.negated) &&
      Needle.allPass (filters.filterMap Needle.ofFilter?) d.body) =
    filters.all fun f => decide (f.Means m d) != f.reversed := by
  unfold Needle.allPass
  induction filters with
  | nil => rfl
  | cons f filters ih =>
    rw [List.all_cons, ← ih]
    cases hterm : Query.Term.ofFilter? f with
    | none =>
      have htext := Query.ofFilter?_eq_none_iff.1 hterm
      have hneedle : Needle.ofFilter? f = some ⟨lower f.value.toList, f.reversed⟩ := by
        rw [Needle.ofFilter?, if_pos htext]
      have hoccurs :
          occurs (lower f.value.toList) (lower d.body.toList) = decide (f.Means m d) := by
        rw [Bool.eq_iff_iff, occurs_iff_means htext, decide_eq_true_iff]
      rw [List.filterMap_cons_none hterm, List.filterMap_cons_some hneedle, List.all_cons,
        Needle.meets, hoccurs, Bool.and_left_comm]
    | some t =>
      have htext := Query.isText_eq_false hterm
      have hneedle : Needle.ofFilter? f = none := by
        rw [Needle.ofFilter?, if_neg (by simp [htext])]
      have hstands := Query.ofFilter?_eq_some_iff.1 hterm
      have hholds : m.catalogue.holds (m.entry d) t = decide (f.Means m d) := by
        rw [Bool.eq_iff_iff, holds_iff hd hstands, decide_eq_true_iff]
      rw [List.filterMap_cons_some hterm, List.filterMap_cons_none hneedle, List.all_cons, hholds,
        hstands.negated, Bool.and_assoc]

/-- What is selected are the documents that the filters mean which are not on text. -/
theorem select_perm_meant (m : Memory) (filters : List Filter) :
    (m.catalogue.select (filters.filterMap Query.Term.ofFilter?)).Perm
      ((m.meant (filters.filter (!·.isText))).map m.hitOf) := by
  have hterms : (filters.filter (!·.isText)).filterMap Query.Term.ofFilter? =
      filters.filterMap Query.Term.ofFilter? := by
    rw [List.filterMap_filter]
    refine List.filterMap_congr fun f _ => ?_
    cases htext : f.isText with
    | true => exact (Query.ofFilter?_eq_none_iff.2 htext).symm
    | false => rfl
  have hneedles : (filters.filter (!·.isText)).filterMap Needle.ofFilter? = [] := by
    refine List.filterMap_eq_nil_iff.2 fun f hf => ?_
    have htext := List.of_mem_filter hf
    rw [Needle.ofFilter?, if_neg (by simpa using htext)]
  refine (m.select_perm _).trans (.of_eq ?_)
  unfold meant
  congr 1
  refine List.filter_congr fun d hd => ?_
  rw [← all_terms_and_needles hd, hterms, hneedles]
  exact (Bool.and_true _).symm

/-- What is kept of the selected notes are the documents that the filters mean. -/
theorem kept_perm (m : Memory) (request : Request) :
    (request.kept m.read
      (m.catalogue.select (request.filters.filterMap Query.Term.ofFilter?))).Perm
      ((m.meant request.filters).map m.hitOf) := by
  have hselect := m.select_perm (request.filters.filterMap Query.Term.ofFilter?)
  rw [Request.kept_eq fun hit hhit => exists_read_of_mem_select hhit]
  refine (hselect.filter _).trans (.of_eq ?_)
  rw [List.filter_map, List.filter_filter, meant]
  congr 1
  refine List.filter_congr fun d hd => ?_
  have hread : m.read (m.hitOf d).path = .ok d.body := read_of_mem hd
  rw [← all_terms_and_needles hd, Function.comp_apply, Needle.allPassAt, hread,
    Bool.and_comm]
  rfl

theorem nodup_paths_meant (m : Memory) (filters : List Filter) :
    (((m.meant filters).map m.hitOf).map (·.path)).Nodup := by
  rw [List.map_map]
  exact List.pairwise_map.2 (m.distinct.filter _)

end Vault.Memory

namespace Search

/-- After any changes of a vault in memory, a run under a ticket that lasts gives the documents that
every filter means, or does not mean if it is reversed: each of them once, and no others, in the
order that is asked for, with those that this order does not tell apart in the order of their
paths. The query never fails. Only where there are filters on text, and not all bodies are delivered
of the documents that the other filters mean, may the run fail, and then it is for want of one of
these bodies. -/
theorem run_finds_meant (edits : List Memory.Edit) (request : Request) (course : Course)
    (ticket : Ticket) (s : Signals)
    (hrender : ∀ f ∈ request.filters, f.isText = false → f.IsRenderable)
    (hsends : ∀ candidates,
      (Memory.ofEdits edits).backend.answer (Query.compile request.filters) = .ok candidates →
        course.SendsWhatIsRead candidates (Memory.ofEdits edits).read)
    (hlasts : ∀ candidates,
      (Memory.ofEdits edits).backend.answer (Query.compile request.filters) = .ok candidates →
        ticket.Lasts s (course.noticesOfRun candidates)) :
    ∃ candidates,
      (Memory.ofEdits edits).backend.answer (Query.compile request.filters) = .ok candidates ∧
      candidates.Perm (((Memory.ofEdits edits).meant (request.filters.filter (!·.isText))).map
        (Memory.ofEdits edits).hitOf) ∧
      ((∃ hits s',
          (run (Memory.ofEdits edits).backend course request ticket).run.run s = (.ok hits, s') ∧
          hits.Perm
            (((Memory.ofEdits edits).meant request.filters).map (Memory.ofEdits edits).hitOf) ∧
          (hits.map (·.path)).Nodup ∧
          hits.Pairwise fun a b =>
            (request.sort.getD {}).order a b = .lt ∨
              (request.sort.getD {}).order a b = .eq ∧ compare a.path b.path = .lt) ∨
        (∃ f ∈ request.filters, f.isText = true) ∧
          ¬ course.Delivers candidates (Memory.ofEdits edits).read ∧
          ∃ fault : Fault, fault.IsMissing candidates request.limit ∧
            ((run (Memory.ofEdits edits).backend course request ticket).run.run s).1 =
              .error fault) := by
  revert hsends hlasts
  generalize Memory.ofEdits edits = m
  intro hsends hlasts
  have hanswer : m.backend.answer (Query.compile request.filters) =
      .ok (m.catalogue.select (request.filters.filterMap Query.Term.ofFilter?)) :=
    m.catalogue.answer_compile hrender
  refine ⟨_, hanswer, m.select_perm_meant request.filters, ?_⟩
  obtain ⟨s', hyields⟩ | ⟨hneedles, hmissing, hfails⟩ := yields_or_fails_run rfl hanswer
    (fun hit hhit => Memory.exists_read_of_mem_select hhit) (hsends _ hanswer) (hlasts _ hanswer)
  · have hperm := (sortHits_perm request.sort _).trans (m.kept_perm request)
    refine .inl ⟨_, s', hyields, hperm, ?_, ?_⟩
    · exact (hperm.map (·.path)).nodup_iff.2 (m.nodup_paths_meant request.filters)
    · exact pairwise_sortHits _ ((m.pairwise_select _).sublist (request.kept_sublist _ _))
  · exact .inr ⟨Request.exists_isText hneedles, hmissing, hfails⟩

theorem run_finds_meant_after_four_edits :
    let m := Memory.ofEdits [.write "a.md" "#Work see [[b]]" {} {},
      .write "b.md" "plain" {} {}, .write "c.md" "#work" {} {}, .remove "c.md"]
    let request : Request := { filters := [⟨.tag, "work", false⟩, ⟨.folder, "old", true⟩,
      ⟨.link true none, "b", false⟩, ⟨.text, "see", false⟩] }
    ∃ hits s',
      (run m.backend (.prompt m.read) request .unlimited).run.run {} = (.ok hits, s') ∧
      hits.Perm ((m.meant request.filters).map m.hitOf) ∧ (hits.map (·.path)).Nodup ∧
      hits.Pairwise fun a b =>
        (request.sort.getD {}).order a b = .lt ∨
          (request.sort.getD {}).order a b = .eq ∧ compare a.path b.path = .lt := by
  intro m request
  obtain ⟨candidates, -, -, hfound | ⟨-, hmissing, -⟩⟩ := run_finds_meant
    [.write "a.md" "#Work see [[b]]" {} {}, .write "b.md" "plain" {} {},
      .write "c.md" "#work" {} {}, .remove "c.md"] request (.prompt m.read) .unlimited {}
    (by decide) (fun _ _ => Course.delivers_prompt.sendsWhatIsRead)
    (fun _ _ => Ticket.lasts_unlimited _ _)
  · exact hfound
  · exact absurd Course.delivers_prompt hmissing

/-- A body that is waited for in vain fails the run, although the filters mean its document and the
ticket is never cancelled. -/
theorem run_fails_without_body :
    let m := Memory.ofEdits [.write "a.md" "x" {} {}]
    let request : Request := { filters := [⟨.text, "x", false⟩], limit := 60 }
    let course : Course := { arrivals := fun _ => [(0, .silence)] }
    (m.meant request.filters).map m.hitOf = [⟨"a", "a.md", 1, {}, {}, "", 0⟩] ∧
      (∀ notices, Ticket.unlimited.Lasts {} notices) ∧
      ((run m.backend course request .unlimited).run.run {}).1 =
        .error (.fetch "a.md" (.timedOut "a.md" 60)) := by
  intro m request course
  exact ⟨by decide, Ticket.lasts_unlimited {}, by decide +kernel⟩

end Search
end NoteSearch

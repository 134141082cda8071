import Mathlib.Logic.Relation
import NoteSearch.Proofs.Session.Current
import NoteSearch.Proofs.Vault.Memory
import NoteSearch.Proofs.Workspace.Publishing

/-!
# A clean session shows what the vault holds

A session is watched on a vault in memory while its user acts on it, notices come, documents are
written to new paths and ticks are made, in any order. Whenever it is clean and its last run
has succeeded, its hits are those that a run gives now, and its suggestions those of the vault.
-/
namespace NoteSearch
open Search

/-! ## What may happen -/

namespace Workspace

/-- What is read at a path now. -/
def reads (w : Workspace) (path : String) : Except Vault.Fault String := (w.store.read path).1

/-- What a request finds now. -/
def Finds (w : Workspace) (request : Request) (hits : List Hit) : Prop :=
  request.Finds w.backend w.reads hits

/-- A document that is to be written. -/
structure Draft where
  path : String
  body : String
  created : Time.Instant
  modified : Time.Instant

/-- Write a document; with whether its path is new. -/
def insert (w : Workspace) (draft : Draft) : Bool × Workspace :=
  w.write draft.path draft.body draft.created draft.modified

/-- Write some documents one after the other. -/
def insertAll (w : Workspace) (drafts : List Draft) : Workspace :=
  drafts.foldl (fun w draft => (w.insert draft).2) w

end Workspace

/-- A workspace, and what the last tick of a session of it came to that had something to do. -/
structure Watched where
  workspace : Workspace
  last : Session.Last := none

namespace Watched

/-- What may happen while the session of this number is watched. Readers of bodies may fail, but
those that succeed read what the vault holds. Documents may also be written while a tick is made;
then nothing is known of what the tick sees, but the session has notice of them when it ends. -/
inductive Step (number : Nat) : Watched → Watched → Prop
  | acts {w : Workspace} {last : Session.Last} {s : Session} (h : w.session? number = some s)
      (action : Session.Action) :
      Step number ⟨w, last⟩ ⟨w.setSession number (some (s.act action)), last⟩
  | refreshes {w : Workspace} {last : Session.Last} {s : Session}
      (h : w.session? number = some s) :
      Step number ⟨w, last⟩
        ⟨w.setSession number (some (s.withSuggestions w.store.suggestions)), last⟩
  | hears {w : Workspace} {last : Session.Last} : Step number ⟨w, last⟩ ⟨(w.notify number).2, last⟩
  | inserts {w : Workspace} {last : Session.Last} (draft : Workspace.Draft)
      (hnew : (w.insert draft).1 = true) : Step number ⟨w, last⟩ ⟨(w.insert draft).2, last⟩
  | ticks {w : Workspace} {last : Session.Last} {s : Session} (h : w.session? number = some s)
      (course : Course)
      (hfaithful : ∀ candidates,
        w.backend.answer (Query.compile s.request.filters) = .ok candidates →
          course.IsFaithful candidates w.reads) :
      Step number ⟨w, last⟩
        ⟨w.setSession number (some (s.tick w.store.suggestions w.backend course).2),
          Session.lastAfter last (s.tick w.store.suggestions w.backend course).1⟩
  | ticksAmid {w : Workspace} {last : Session.Last} {s : Session} (h : w.session? number = some s)
      (drafts : List Workspace.Draft) (offered : List Filter) (backend : Backend) (course : Course)
      (hnotice : (s.tick offered backend course).2.signals.changed = true) :
      Step number ⟨w, last⟩
        ⟨(w.insertAll drafts).setSession number (some (s.tick offered backend course).2),
          Session.lastAfter last (s.tick offered backend course).1⟩
  | elsewhere {w w' : Workspace} {last : Session.Last} (h : Workspace.Spares number w w') :
      Step number ⟨w, last⟩ ⟨w', last⟩

/-- Whatever happens, one thing after the other. -/
def Leads (number : Nat) : Watched → Watched → Prop := Relation.ReflTransGen (Step number)

/-! ## What stays true -/

/-- The session is open and watches a vault in memory that answers queries, and it is current. -/
structure IsCurrent (number : Nat) (x : Watched) : Prop where
  inMemory : ∃ vault, x.workspace.store = .memory vault
  serves : x.workspace.service = .on
  watches : .session number ∈ x.workspace.watchers
  shows : ∃ s, x.workspace.session? number = some s ∧
    s.IsCurrent x.workspace.store.suggestions x.workspace.Finds x.last

end Watched

namespace Workspace

variable {w w' : Workspace} {number : Nat}

theorem Keeps.backend (h : Keeps w w') : w'.backend = w.backend := by
  unfold Workspace.backend isAvailable answer
  rw [h.store, h.service]

theorem Keeps.reads (h : Keeps w w') : w'.reads = w.reads := by
  unfold Workspace.reads
  rw [h.store]

theorem Keeps.finds (h : Keeps w w') : w'.Finds = w.Finds := by
  unfold Finds
  rw [h.backend, h.reads]

section
variable {vault : Vault.Memory}

theorem backend_of_memory (hstore : w.store = .memory vault) (hserves : w.service = .on) :
    w.backend = ⟨true, vault.catalogue.answer⟩ := by
  unfold backend isAvailable answer
  rw [hstore, hserves]
  rfl

theorem reads_of_memory (hstore : w.store = .memory vault) : w.reads = vault.read := by
  unfold reads
  rw [hstore]
  rfl

/-- Whatever is an answer to a query, the bodies of its hits can be read. -/
theorem exists_reads_of_answer (hstore : w.store = .memory vault) (hserves : w.service = .on)
    {query : String} {candidates : List Hit} (h : w.backend.answer query = .ok candidates)
    {hit : Hit} (hhit : hit ∈ candidates) : ∃ body, w.reads hit.path = .ok body := by
  rw [backend_of_memory hstore hserves] at h
  rw [reads_of_memory hstore]
  exact Vault.Memory.exists_read_of_answer h hhit

end

theorem ignoresLimit_finds (w : Workspace) : Session.IgnoresLimit w.Finds :=
  fun _ _ _ h => h

/-- Documents that are written leave a vault in memory that answers, and the session watches on. -/
theorem insertAll_keeps (drafts : List Draft) {vault : Vault.Memory} {s : Session}
    (hstore : w.store = .memory vault) (hserves : w.service = .on)
    (hwatches : .session number ∈ w.watchers) (hs : w.session? number = some s) :
    (∃ vault, (w.insertAll drafts).store = .memory vault) ∧ (w.insertAll drafts).service = .on ∧
      .session number ∈ (w.insertAll drafts).watchers ∧
      ∃ t, (w.insertAll drafts).session? number = some t := by
  induction drafts generalizing w vault s with
  | nil => exact ⟨⟨vault, hstore⟩, hserves, hwatches, s, hs⟩
  | cons draft drafts ih =>
    obtain ⟨t, ht, -, hkept⟩ := session?_write hstore hs hwatches
    have hkeeps := @keeps_write w vault draft.path draft.body draft.created draft.modified hstore
    exact ih hkeeps.store (hkeeps.service.trans hserves) hkept ht

end Workspace

namespace Watched
open Workspace

variable {number : Nat} {x y : Watched}

/-- Whatever happens next, the session stays current. -/
theorem IsCurrent.step (h : x.IsCurrent number) (hstep : Step number x y) : y.IsCurrent number := by
  obtain ⟨⟨vault, hstore⟩, hserves, hwatches, s, hs, hcurrent⟩ := h
  cases hstep with
  | acts h action =>
    obtain rfl := Option.some.inj (hs.symm.trans h)
    exact ⟨⟨vault, hstore⟩, hserves, hwatches, _, session?_setSession hs _,
      (s.tended_act action).isCurrent (ignoresLimit_finds _) hcurrent⟩
  | refreshes h =>
    obtain rfl := Option.some.inj (hs.symm.trans h)
    exact ⟨⟨vault, hstore⟩, hserves, hwatches, _, session?_setSession hs _,
      Session.isCurrent_withSuggestions hcurrent⟩
  | hears =>
    rw [notify_of_session? hs]
    exact ⟨⟨vault, hstore⟩, hserves, hwatches, _, session?_setSession hs _,
      Session.isCurrent_of_changed rfl⟩
  | inserts draft hnew =>
    obtain ⟨t, ht, hnews, hkept⟩ := session?_write hstore hs hwatches
    have hkeeps := @keeps_write _ vault draft.path draft.body draft.created draft.modified hstore
    exact ⟨⟨_, hkeeps.store⟩, hkeeps.service.trans hserves, hkept, t, ht,
      Session.isCurrent_of_changed (hnews hnew)⟩
  | ticks h course hfaithful =>
    obtain rfl := Option.some.inj (hs.symm.trans h)
    refine ⟨⟨vault, hstore⟩, hserves, hwatches, _, session?_setSession hs _, ?_⟩
    exact Session.isCurrent_tick (fun _ _ _ _ => finds_of_yields hfaithful) hcurrent
  | ticksAmid h drafts offered backend course hnotice =>
    obtain rfl := Option.some.inj (hs.symm.trans h)
    obtain ⟨hmemory, hservice, hkept, t, ht⟩ := insertAll_keeps drafts hstore hserves hwatches hs
    exact ⟨hmemory, hservice, hkept, _, session?_setSession ht _,
      Session.isCurrent_of_changed hnotice⟩
  | elsewhere h =>
    refine ⟨⟨vault, h.store.trans hstore⟩, h.service.trans hserves, ?_, s, h.session.trans hs, ?_⟩
    · rw [h.watchers]
      exact hwatches
    · rw [h.store, h.finds]
      exact hcurrent

theorem IsCurrent.leads (h : x.IsCurrent number) (hleads : Leads number x y) :
    y.IsCurrent number := by
  induction hleads with
  | refl => exact h
  | tail _ hstep ih => exact ih.step hstep

/-- A session is current when it is opened. -/
theorem isCurrent_openSession {w : Workspace} {vault : Vault.Memory}
    (hstore : w.store = .memory vault) (hserves : w.service = .on) :
    IsCurrent w.openSession.1 ⟨w.openSession.2, none⟩ where
  inMemory := ⟨vault, hstore⟩
  serves := hserves
  watches := List.mem_append_right _ List.mem_cons_self
  shows := ⟨_, session?_openSession w, Session.isCurrent_ofSuggestions _ _⟩

/-- Whatever has happened since a session was opened on a vault in memory: if it is clean and its
last run has succeeded, then every run that is left alone gives the hits that the session shows,
and its suggestions are those of the vault. -/
theorem shows_what_is_found {w₀ w : Workspace} {vault : Vault.Memory} {s : Session} {n : Nat}
    (hstore : w₀.store = .memory vault) (hserves : w₀.service = .on)
    (hleads : Leads w₀.openSession.1 ⟨w₀.openSession.2, none⟩ ⟨w, some (.ok (.updated n))⟩)
    (hs : w.session? w₀.openSession.1 = some s) (hclean : s.isDirty = false) :
    s.selection.suggestions = Suggestion.collect w.store.catalogue ∧
    ∀ (course : Course) (ticket : Ticket) (signals : Signals),
      course.IsSmooth w.backend s.request w.reads ticket signals →
      ∃ signals', (run w.backend course s.request ticket).run.run signals =
        (.ok s.hits, signals') := by
  obtain ⟨⟨vault, hmemory⟩, hservice, -, t, ht, hcurrent⟩ :=
    (isCurrent_openSession hstore hserves).leads hleads
  obtain rfl := Option.some.inj (hs.symm.trans ht)
  refine ⟨hcurrent.suggestions (Bool.or_eq_false_iff.1 hclean).2, ?_⟩
  intro course ticket signals hsmooth
  have hread : ∀ candidates, w.backend.answer (Query.compile s.request.filters) = .ok candidates →
      ∀ hit ∈ candidates, ∃ body, w.reads hit.path = .ok body :=
    fun _ hanswer _ hhit => exists_reads_of_answer hmemory hservice hanswer hhit
  exact yields_of_finds hsmooth hread (hcurrent.hits hclean n rfl)

theorem shows_what_is_found_after_insertion :
    let w₀ : Workspace := { store := .memory {} }
    let w₁ := (w₀.openSession.2.insert ⟨"a.md", "#tag text", {}, {}⟩).2
    let s₁ := ((w₁.session? 0).getD {}).act (.addFilter ⟨.tag, "tag", false⟩)
    let w₂ := w₁.setSession 0 (some s₁)
    let s₂ := (s₁.tick w₂.store.suggestions w₂.backend (.prompt w₂.reads)).2
    let w₃ := w₂.setSession 0 (some s₂)
    s₂.isDirty = false ∧ s₂.selection.suggestions = Suggestion.collect w₃.store.catalogue ∧
      ∃ signals', (run w₃.backend (.prompt w₃.reads) s₂.request .unlimited).run.run {} =
        (.ok s₂.hits, signals') := by
  intro w₀ w₁ s₁ w₂ s₂ w₃
  have hopen : w₁.session? 0 = some ((w₁.session? 0).getD {}) := rfl
  have hadded : w₂.session? 0 = some s₁ := session?_setSession hopen s₁
  have hticked : w₃.session? 0 = some s₂ := session?_setSession hadded s₂
  have hupdated : Session.lastAfter none
      (s₁.tick w₂.store.suggestions w₂.backend (.prompt w₂.reads)).1 = some (.ok (.updated 1)) := by
    decide +kernel
  have hclean : s₂.isDirty = false := by decide +kernel
  have hinserted : Step 0 ⟨w₀.openSession.2, none⟩ ⟨w₁, none⟩ :=
    .inserts ⟨"a.md", "#tag text", {}, {}⟩ (by decide +kernel)
  have hleads : Leads w₀.openSession.1 ⟨w₀.openSession.2, none⟩ ⟨w₃, some (.ok (.updated 1))⟩ := by
    rw [← hupdated]
    refine .tail (.tail (.single hinserted) (.acts hopen _)) (.ticks hadded _ ?_)
    exact fun _ _ => Course.delivers_prompt.sendsWhatIsRead.isFaithful
  obtain ⟨hsuggestions, hruns⟩ :=
    @shows_what_is_found w₀ w₃ {} s₂ 1 rfl rfl hleads hticked hclean
  exact ⟨hclean, hsuggestions,
    hruns (.prompt w₃.reads) .unlimited {} (Course.isSmooth_prompt (Ticket.lasts_unlimited _ _))⟩

end Watched
end NoteSearch

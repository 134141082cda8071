import NoteSearch.Proofs.Workspace.Current

/-!
# The courses of a workspace

What a workspace makes of its pending notices and troubled readers is a faithful course: on a vault
in memory every body that a reader sends is the one that is there. So a tick of the
workspace is one of the things that may happen to a session that is watched.
-/
namespace NoteSearch.Workspace
open Search

variable {w : Workspace} {number : Nat} {vault : Vault.Memory}

theorem spares_fire (w : Workspace) (number other : Nat) :
    Spares number w (w.fire (some number) other).2 := by
  unfold fire
  split
  · exact .refl number w
  · next hother => exact spares_notify fun heq => hother (heq ▸ rfl)

theorem spares_fireOnQuery (w : Workspace) (number : Nat) :
    Spares number w (w.fireOnQuery (some number)).2 := by
  unfold fireOnQuery
  split
  · next other _ =>
    have hfired := spares_fire { w with onQuery := none } number other
    exact ⟨⟨hfired.store, hfired.service⟩, hfired.session, hfired.watchers⟩
  · exact .refl number w

theorem spares_fireOnRead (w : Workspace) (number : Nat) (path : String) :
    Spares number w (w.fireOnRead (some number) path).2 := by
  unfold fireOnRead
  split
  · next awaited other _ =>
    split
    · have hfired := spares_fire { w with onRead := none } number other
      exact ⟨⟨hfired.store, hfired.service⟩, hfired.session, hfired.watchers⟩
    · exact .refl number w
  · exact .refl number w

/-- A reader of a vault in memory changes nothing there, and what it sends is what the vault
holds. -/
theorem readFor_of_memory (hstore : w.store = .memory vault) (path : String) :
    Spares number w (w.readFor (some number) path).2.2 ∧
      ∀ body, (w.readFor (some number) path).2.1 = some (.ok body) →
        vault.read path = .ok body := by
  have hspares := w.spares_fireOnRead number path
  unfold readFor
  generalize w.fireOnRead (some number) path = fired at hspares ⊢
  obtain ⟨notices, w'⟩ := fired
  have hstore' : w'.store = .memory vault := hspares.store.trans hstore
  dsimp only
  split
  · rw [hstore']
    refine ⟨hspares.trans ⟨⟨hstore'.symm, rfl⟩, rfl, rfl⟩, fun body hbody => ?_⟩
    exact Option.some.inj hbody
  · exact ⟨hspares, fun body hbody => by cases hbody⟩
  · exact ⟨hspares, fun body hbody => by cases hbody⟩

/-- The readers of candidates send at most once each, in turn, and what the vault holds. -/
theorem readAll_of_memory (hstore : w.store = .memory vault) {last : Arrival}
    (hlast : last.index? = none) (index waiting : Nat) (hits : List Hit) :
    Spares number w (w.readAll (some number) last index waiting hits).2 ∧
      ((w.readAll (some number) last index waiting hits).1.filterMap (·.2.index?)).Sublist
        ((hits.zipIdx index).map Prod.snd) ∧
      ∀ arrival ∈ (w.readAll (some number) last index waiting hits).1, ∀ i body,
        arrival.2 = .read i (.ok body) →
          ∃ hit, (hit, i) ∈ hits.zipIdx index ∧ vault.read hit.path = .ok body := by
  induction hits generalizing w index waiting with
  | nil =>
    refine ⟨.refl number w, ?_, fun arrival harrival i body heq => ?_⟩
    · simp [readAll, hlast]
    · rw [readAll, List.mem_singleton] at harrival
      rw [harrival] at heq
      rw [show last = .read i (.ok body) from heq] at hlast
      cases hlast
  | cons hit hits ih =>
    obtain ⟨hspares, hbody⟩ := @readFor_of_memory w number vault hstore hit.path
    simp only [readAll]
    split
    · next notices outcome w' hread =>
      rw [hread] at hspares hbody
      obtain ⟨hspares', hindices, harrivals⟩ := ih (hspares.store.trans hstore) (index + 1) 0
      refine ⟨hspares.trans hspares', ?_, fun arrival harrival i body heq => ?_⟩
      · exact hindices.cons_cons index
      · obtain rfl | harrival := List.mem_cons.1 harrival
        · cases heq
          exact ⟨hit, List.mem_cons_self, hbody body rfl⟩
        · obtain ⟨other, hother, hsent⟩ := harrivals arrival harrival i body heq
          exact ⟨other, List.mem_cons_of_mem _ hother, hsent⟩
    · next notices w' hread =>
      rw [hread] at hspares
      obtain ⟨hspares', hindices, harrivals⟩ :=
        ih (hspares.store.trans hstore) (index + 1) (waiting + notices)
      refine ⟨hspares.trans hspares', hindices.cons index, fun arrival harrival i body heq => ?_⟩
      obtain ⟨other, hother, hsent⟩ := harrivals arrival harrival i body heq
      exact ⟨other, List.mem_cons_of_mem _ hother, hsent⟩

theorem isFaithful_of_silent {course : Course} {candidates : List Hit}
    (h : course.arrivals candidates = []) : course.IsFaithful candidates vault.read where
  once := by simp [Course.received, h]
  bodies := by simp [Course.received, h]

/-- The course of a run on a vault in memory spares the session that makes it, and is faithful. -/
theorem course_of_memory (hstore : w.store = .memory vault) (request : Request) :
    Spares number w (w.course (some number) request).2 ∧
      ∀ candidates, w.backend.answer (Query.compile request.filters) = .ok candidates →
        (w.course (some number) request).1.IsFaithful candidates w.reads := by
  rw [reads_of_memory hstore]
  unfold course
  split
  · exact ⟨.refl number w, fun _ _ => isFaithful_of_silent rfl⟩
  · have hfired := w.spares_fireOnQuery number
    generalize w.fireOnQuery (some number) = fired at hfired ⊢
    obtain ⟨notices, w'⟩ := fired
    have hanswer : w.backend.answer = w'.answer := by
      rw [← hfired.backend]
      rfl
    dsimp only
    rw [hanswer]
    split
    · next candidates hcandidates =>
      split
      · exact ⟨hfired, fun _ _ => isFaithful_of_silent rfl⟩
      · have hlast :
            (if w'.isStalled (candidates.map (·.path)) then Arrival.silence
              else .closed).index? = none := by
          split <;> rfl
        obtain ⟨hspares, hindices, harrivals⟩ := @readAll_of_memory w' number vault
          (hfired.store.trans hstore) _ hlast 0 0 candidates
        refine ⟨hfired.trans hspares, fun found hfound => ?_⟩
        obtain rfl := Except.ok.inj (hcandidates.symm.trans hfound)
        refine ⟨?_, fun arrival harrival i body heq => ?_⟩
        · rw [List.zipIdx_map_snd] at hindices
          refine (List.Sublist.trans ?_ hindices).nodup List.nodup_range'
          exact (List.take_sublist candidates.length _).filterMap _
        · obtain ⟨hit, hhit, hsent⟩ := harrivals arrival (List.mem_of_mem_take harrival) i body heq
          exact ⟨hit, List.mem_zipIdx_iff_getElem?.1 hhit, hsent⟩
    · exact ⟨hfired, fun _ _ => isFaithful_of_silent rfl⟩

end NoteSearch.Workspace

namespace NoteSearch.Watched
open Search Workspace

/-- A tick that the workspace makes is one of the things that may happen. -/
theorem leads_tick {w : Workspace} {number : Nat} {vault : Vault.Memory} {s : Session}
    (hstore : w.store = .memory vault) (hs : w.session? number = some s) (last : Session.Last) :
    Leads number ⟨w, last⟩ ⟨(w.tick number s).2, Session.lastAfter last (w.tick number s).1⟩ := by
  have hcourse : ∀ pair, pair = (if s.isDirty then w.course (some number) s.request
      else ({ arrivals := fun _ => [] }, w)) →
      Spares number w pair.2 ∧
        ∀ candidates, w.backend.answer (Query.compile s.request.filters) = .ok candidates →
          pair.1.IsFaithful candidates w.reads := by
    rintro pair rfl
    split
    · exact course_of_memory hstore s.request
    · rw [reads_of_memory hstore]
      exact ⟨.refl number w, fun _ _ => isFaithful_of_silent rfl⟩
  obtain ⟨hspares, hfaithful⟩ := hcourse _ rfl
  unfold tick
  generalize (if s.isDirty then w.course (some number) s.request
    else ({ arrivals := fun _ => [] }, w)) = pair at hspares hfaithful ⊢
  obtain ⟨course, after⟩ := pair
  have hopen : after.session? number = some s := hspares.session.trans hs
  have hafter : after.backend = w.backend := hspares.backend
  have hticks := @Step.ticks number after last s hopen course
    (by rw [hafter, hspares.reads]; exact hfaithful)
  rw [hafter, hspares.store] at hticks
  exact .tail (.single (.elsewhere hspares)) hticks

end NoteSearch.Watched

import NoteSearch.Workspace.Basic

/-!
# What reaches a session

An open session that watches is given notice of every new document, and goes on watching. What is
told to others does not touch it, and telling does not touch the store.
-/
namespace NoteSearch.Workspace

variable {w : Workspace} {number : Nat} {s : Session}

theorem session?_eq_some_iff :
    w.session? number = some s ↔ w.sessions[number]? = some (some s) := by
  rw [session?, Option.join_eq_some_iff]

theorem session?_setSession (h : w.session? number = some s) (t : Session) :
    (w.setSession number (some t)).session? number = some t := by
  have hlt := (List.getElem?_eq_some_iff.1 (session?_eq_some_iff.1 h)).1
  rw [session?_eq_some_iff]
  exact List.getElem?_set_self hlt

theorem session?_setSession_of_ne {other : Nat} (hne : other ≠ number) (t : Option Session) :
    (w.setSession other t).session? number = w.session? number := by
  unfold session? setSession
  rw [List.getElem?_set_ne hne]

theorem session?_openSession (w : Workspace) :
    w.openSession.2.session? w.openSession.1 = some (.ofSuggestions w.store.suggestions) := by
  rw [session?_eq_some_iff]
  exact List.getElem?_concat_length

/-- The vault is the same, and so is the way in which it answers. -/
structure Keeps (w w' : Workspace) : Prop where
  store : w'.store = w.store
  service : w'.service = w.service

/-- What happens elsewhere: the session of this number and the watchers are spared, too. -/
structure Spares (number : Nat) (w w' : Workspace) : Prop extends Keeps w w' where
  session : w'.session? number = w.session? number
  watchers : w'.watchers = w.watchers

theorem Keeps.refl (w : Workspace) : Keeps w w := ⟨rfl, rfl⟩

theorem Keeps.trans {w₁ w₂ w₃ : Workspace} (h : Keeps w₁ w₂) (h' : Keeps w₂ w₃) : Keeps w₁ w₃ :=
  ⟨h'.store.trans h.store, h'.service.trans h.service⟩

theorem Spares.refl (number : Nat) (w : Workspace) : Spares number w w := ⟨.refl w, rfl, rfl⟩

theorem Spares.trans {w₁ w₂ w₃ : Workspace} (h : Spares number w₁ w₂) (h' : Spares number w₂ w₃) :
    Spares number w₁ w₃ :=
  ⟨h.toKeeps.trans h'.toKeeps, h'.session.trans h.session, h'.watchers.trans h.watchers⟩

/-! ## Notices -/

theorem notify_of_session? (h : w.session? number = some s) :
    w.notify number = (true, w.setSession number (some s.notice)) := by
  rw [notify, h]

theorem keeps_notify (w : Workspace) (number : Nat) : Keeps w (w.notify number).2 := by
  unfold notify
  split <;> exact ⟨rfl, rfl⟩

theorem spares_notify {other : Nat} (hne : other ≠ number) :
    Spares number w (w.notify other).2 := by
  refine ⟨w.keeps_notify other, ?_, ?_⟩
  · unfold notify
    split
    · exact session?_setSession_of_ne hne _
    · rfl
  · unfold notify
    split <;> rfl

/-! ## Telling of new documents -/

theorem keeps_tell (w : Workspace) (path : String) (watcher : Watcher) :
    Keeps w (w.tell path watcher).2 := by
  cases watcher with
  | session other => exact w.keeps_notify other
  | other name keep => exact ⟨rfl, rfl⟩

/-- Whoever else is told, a session only hears what is for it, and then goes on watching. -/
theorem session?_tell (h : w.session? number = some s) (path : String) (watcher : Watcher) :
    watcher = .session number ∧
      w.tell path watcher = (true, w.setSession number (some s.notice)) ∨
    watcher ≠ .session number ∧ (w.tell path watcher).2.session? number = some s := by
  by_cases hself : watcher = .session number
  · refine .inl ⟨hself, ?_⟩
    rw [hself]
    exact notify_of_session? h
  · refine .inr ⟨hself, ?_⟩
    cases watcher with
    | session other =>
      have hne : other ≠ number := fun heq => hself (heq ▸ rfl)
      exact (spares_notify hne).session.trans h
    | other name keep => exact h

theorem keeps_tellAll (w : Workspace) (path : String) (watchers : List Watcher) :
    Keeps w (w.tellAll path watchers).2 := by
  induction watchers generalizing w with
  | nil => exact .refl w
  | cons watcher watchers ih => exact (w.keeps_tell path watcher).trans (ih _)

theorem tellAll_cons (w : Workspace) (path : String) (watcher : Watcher) (rest : List Watcher) :
    w.tellAll path (watcher :: rest) =
      (if (w.tell path watcher).1 then watcher :: ((w.tell path watcher).2.tellAll path rest).1
        else ((w.tell path watcher).2.tellAll path rest).1,
      ((w.tell path watcher).2.tellAll path rest).2) :=
  rfl

/-- After all are told, a session is still open. If it is among them it has heard news, which it
does not forget, and goes on watching. -/
theorem session?_tellAll (h : w.session? number = some s) (path : String)
    (watchers : List Watcher) :
    ∃ t, (w.tellAll path watchers).2.session? number = some t ∧
      (s.signals.changed = true ∨ .session number ∈ watchers → t.signals.changed = true) ∧
      (.session number ∈ watchers → .session number ∈ (w.tellAll path watchers).1) := by
  induction watchers generalizing w s with
  | nil => exact ⟨s, h, fun hnews => hnews.resolve_right List.not_mem_nil, id⟩
  | cons watcher watchers ih =>
    rw [tellAll_cons]
    obtain ⟨rfl, htell⟩ | ⟨hother, htell⟩ := session?_tell h path watcher
    · rw [htell]
      obtain ⟨t, ht, hnews, -⟩ := ih (session?_setSession h s.notice)
      exact ⟨t, ht, fun _ => hnews (.inl rfl), fun _ => List.mem_cons_self⟩
    · obtain ⟨t, ht, hnews, hkept⟩ := ih htell
      have hrest : .session number ∈ watcher :: watchers → .session number ∈ watchers :=
        fun hmem => (List.mem_cons.1 hmem).resolve_left (Ne.symm hother)
      refine ⟨t, ht, fun h => hnews (h.imp_right hrest), fun hmem => ?_⟩
      dsimp only
      split
      · exact List.mem_cons_of_mem watcher (hkept (hrest hmem))
      · exact hkept (hrest hmem)

/-- A new document is news for every open session that watches, and it goes on watching. -/
theorem session?_publish (h : w.session? number = some s)
    (hwatch : .session number ∈ w.watchers) (path : String) :
    ∃ t, (w.publish path).session? number = some t ∧ t.signals.changed = true ∧
      .session number ∈ (w.publish path).watchers := by
  obtain ⟨t, ht, hnews, hkept⟩ := session?_tellAll h path w.watchers
  exact ⟨t, ht, hnews (.inr hwatch), hkept hwatch⟩

theorem keeps_publish (w : Workspace) (path : String) : Keeps w (w.publish path) := by
  have hkeeps := w.keeps_tellAll path w.watchers
  exact ⟨hkeeps.store, hkeeps.service⟩

/-! ## Writing -/

section
variable {vault : Vault.Memory} {path body : String} {created modified : Time.Instant}

theorem write_of_memory (hstore : w.store = .memory vault) :
    w.write path body created modified =
      (!vault.contains path,
        if !vault.contains path then
          publish { w with store := .memory (vault.write path body created modified).2 } path
        else { w with store := .memory (vault.write path body created modified).2 }) := by
  unfold write
  rw [hstore]
  rfl

/-- A document is written to the vault, and nothing else changes in how it answers. -/
theorem keeps_write (hstore : w.store = .memory vault) :
    Keeps { w with store := .memory (vault.write path body created modified).2 }
      (w.write path body created modified).2 := by
  rw [write_of_memory hstore]
  dsimp only
  split
  · exact keeps_publish _ path
  · exact .refl _

/-- A document that is written is news for a session that watches if its path is new. -/
theorem session?_write (hstore : w.store = .memory vault) (h : w.session? number = some s)
    (hwatch : .session number ∈ w.watchers) :
    ∃ t, (w.write path body created modified).2.session? number = some t ∧
      ((w.write path body created modified).1 = true → t.signals.changed = true) ∧
      .session number ∈ (w.write path body created modified).2.watchers := by
  rw [write_of_memory hstore]
  dsimp only
  split
  · obtain ⟨t, ht, hnews, hkept⟩ := session?_publish
      (w := { w with store := .memory (vault.write path body created modified).2 }) h hwatch path
    exact ⟨t, ht, fun _ => hnews, hkept⟩
  · next hold => exact ⟨s, h, fun hnew => absurd hnew hold, hwatch⟩

end

end NoteSearch.Workspace

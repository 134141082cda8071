import NoteSearch.Proofs.Search.Run
import NoteSearch.Proofs.Vault.History
import NoteSearch.Proofs.Workspace.Publishing

/-!
# Edits of a vault in memory, and who hears of them

When a path is written to that holds nothing, all who watch are told of it, each of them once.
No other edit is heard of. Whether a path holds something is decided by the last edit of it.
-/
namespace NoteSearch
open Search Vault

/-! ## Telling everybody -/

/-- The session after as many notices that the vault has changed. -/
def Session.noticed (n : Nat) (s : Session) : Session :=
  { s with signals := Signals.notices n s.signals }

theorem Session.noticed_zero : noticed 0 = id := rfl

theorem Session.noticed_add (m n : Nat) : noticed (m + n) = noticed n ∘ noticed m := by
  funext s
  simp [noticed]

/-- What is noted of a watcher who is told of a new document. -/
def Watcher.noted? (path : String) : Watcher → Option (String × String)
  | .session _ => none
  | .other name _ => some (name, path)

namespace Workspace

variable {w : Workspace} {path : String}

/-- Whether a watcher goes on watching once it has been told: a session does while it is open. -/
def goesOn (w : Workspace) : Watcher → Bool
  | .session number => (w.session? number).isSome
  | .other _ keep => keep

/-- The workspace after watchers have been told of a document, each of them once: it is noted of
those who are no sessions, and every open session has had a notice for each time that it watches. -/
def told (w : Workspace) (path : String) (watchers : List Watcher) : Workspace :=
  { w with
    created := w.created ++ watchers.filterMap (Watcher.noted? path)
    sessions := w.sessions.mapIdx fun number s =>
      s.map (Session.noticed (watchers.count (.session number))) }

/-- Whoever is not told stays as it is. -/
theorem mapIdx_noticed_zero (sessions : List (Option Session)) :
    (sessions.mapIdx fun _ s => s.map (Session.noticed 0)) = sessions :=
  List.ext_getElem? fun i => by simp [Session.noticed_zero]

theorem told_nil (w : Workspace) (path : String) : w.told path [] = w := by
  simp only [told, List.filterMap_nil, List.append_nil, List.count_nil, mapIdx_noticed_zero]

theorem told_append (w : Workspace) (path : String) (watchers others : List Watcher) :
    w.told path (watchers ++ others) = (w.told path watchers).told path others := by
  simp [told, Session.noticed_add, Function.comp_def]

theorem session?_told (w : Workspace) (path : String) (watchers : List Watcher) (number : Nat) :
    (w.told path watchers).session? number =
      (w.session? number).map (Session.noticed (watchers.count (.session number))) := by
  simp only [session?, told, List.getElem?_mapIdx]
  cases w.sessions[number]? <;> rfl

theorem goesOn_told (w : Workspace) (path : String) (watchers : List Watcher) :
    (w.told path watchers).goesOn = w.goesOn := by
  funext watcher
  cases watcher with
  | session number => rw [goesOn, goesOn, session?_told, Option.isSome_map]
  | other name keep => rfl

theorem sessions_told_session (w : Workspace) (path : String) (number i : Nat) :
    (w.told path [.session number]).sessions[i]? =
      if number = i then w.sessions[i]?.map (·.map Session.notice) else w.sessions[i]? := by
  rw [told, List.getElem?_mapIdx]
  by_cases hi : number = i
  · rw [if_pos hi, hi, List.count_singleton_self]
    rfl
  · have hnever : [Watcher.session number].count (.session i) = 0 := by simp [hi]
    rw [if_neg hi, hnever, Session.noticed_zero]
    simp

/-- A notice reaches the session of its number and no other. -/
theorem notify_eq (w : Workspace) (number : Nat) (path : String) :
    w.notify number = ((w.session? number).isSome, w.told path [.session number]) := by
  have htold : ∀ sessions, sessions = (w.told path [.session number]).sessions →
      { w with sessions } = w.told path [.session number] := by
    rintro _ rfl
    simp [told, Watcher.noted?]
  unfold notify
  cases hsession : w.session? number with
  | none =>
    -- The number was never given, or its session is closed: in either case nobody is there to hear.
    refine congrArg _ (htold w.sessions (List.ext_getElem? fun i => ?_))
    rw [sessions_told_session]
    split
    · next hi =>
      subst hi
      obtain hgone | hclosed := Option.join_eq_none_iff.1 hsession
      · rw [hgone]
        rfl
      · rw [hclosed]
        rfl
    · rfl
  | some s =>
    refine congrArg _ (htold _ (List.ext_getElem? fun i => ?_))
    rw [sessions_told_session, List.getElem?_set]
    split
    · next hi =>
      obtain ⟨hlt, hfound⟩ := List.getElem?_eq_some_iff.1 (session?_eq_some_iff.1 hsession)
      subst hi
      simp [hlt, hfound]
    · rfl

theorem tell_eq (w : Workspace) (path : String) (watcher : Watcher) :
    w.tell path watcher = (w.goesOn watcher, w.told path [watcher]) := by
  cases watcher with
  | other name keep => simp [tell, goesOn, told, Watcher.noted?, mapIdx_noticed_zero]
  | session number => exact w.notify_eq number path

/-- Everybody is told once, and those who are still there go on watching. -/
theorem tellAll_eq (w : Workspace) (path : String) (watchers : List Watcher) :
    w.tellAll path watchers = (watchers.filter w.goesOn, w.told path watchers) := by
  induction watchers generalizing w with
  | nil =>
    rw [told_nil]
    rfl
  | cons watcher watchers ih =>
    -- Telling one watcher closes no session, so it does not matter when the others are asked.
    rw [tellAll_cons, tell_eq, ih, goesOn_told, ← told_append, List.filter_cons]
    rfl

theorem publish_eq (w : Workspace) (path : String) :
    w.publish path = { w.told path w.watchers with watchers := w.watchers.filter w.goesOn } := by
  rw [publish, tellAll_eq]

/-! ## Edits -/

theorem remove_of_memory {vault : Memory} (hstore : w.store = .memory vault) :
    w.remove path = ((vault.remove path).1, { w with store := .memory (vault.remove path).2 }) := by
  unfold remove
  rw [hstore]

open Memory in
/-- After any edits of a vault in memory, its copies hold under each path what the last edit of the
path left there. Writing to a path says whether it held nothing, and only then is everybody told,
each watcher once; removing says whether it held something. After other edits the vault looks the
same if and only if every path holds the same. -/
theorem last_edit_counts (w : Workspace) (edits : List Edit) :
    let after (edits : List Edit) : Workspace := { w with store := .memory (ofEdits edits) }
    (ofEdits edits).toCopies = Copies.ofEdits edits ∧
    (Copies.ofEdits edits).Holds (contents edits) ∧
    (∀ path body created modified,
      let later := after (edits ++ [.write path body created modified])
      (after edits).write path body created modified =
        if contents edits path = none then
          (true, { later.told path w.watchers with watchers := w.watchers.filter w.goesOn })
        else (false, later)) ∧
    (∀ path, (after edits).remove path =
      ((contents edits path).isSome, after (edits ++ [.remove path]))) ∧
    ∀ edits', LooksLike (ofEdits edits) (ofEdits edits') ↔
      ∀ path, contents edits path = contents edits' path := by
  intro after
  have hcontains := (toCopies_holds edits).contains
  refine ⟨toCopies_ofEdits edits, holds_ofEdits edits, fun path body created modified => ?_,
    fun path => ?_, fun edits' => looksLike_iff_contents_eq⟩
  · intro later
    have hlater : { after edits with
        store := .memory ((ofEdits edits).write path body created modified).2 } = later := by
      simp only [later, after, ofEdits_concat]
      rfl
    rw [write_of_memory rfl, hcontains, hlater, publish_eq]
    cases contents edits path <;> rfl
  · rw [remove_of_memory rfl, remove_fst, hcontains]
    simp only [after, ofEdits_concat]
    rfl

end Workspace
end NoteSearch

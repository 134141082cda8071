import Mathlib.Data.List.Induction
import NoteSearch.Proofs.Vault.Scanning
import NoteSearch.Proofs.Workspace.Publishing

/-!
# What a vault on disk shows between two scans

A vault on disk is scanned when it is opened and whenever that is asked for. In between, files may
change and bodies may be read in any order. A body that was read once stays what it was until the
next scan; one that was not is the one that the disk holds now. That holds because every body that
is kept is that of a note of the catalogue, so that a scan has to forget all of them.
-/
namespace NoteSearch.Vault
open Disk

namespace Folder

variable {f : Folder} {t : Tree} {path later body : String}

/-- What the disk holds under a path of the vault. -/
def fetched (f : Folder) (t : Tree) (path : String) : Except Fault String :=
  match t.read (joined f.root path) with
  | .error fault => .error (.unreadable path fault.message)
  | .ok (bytes, _) => .ok (Text.ofBytes bytes)

/-- The vault with what was read of a path, if that is a body. -/
def keeping (f : Folder) (path : String) : Except Fault String → Folder
  | .ok body => { f with bodies := (path, body) :: f.bodies }
  | .error _ => f

theorem fetched_ne_notFound (f : Folder) (t : Tree) (path other : String) :
    f.fetched t path ≠ .error (.notFound other) := by
  unfold fetched
  split <;> simp

/-- Under the path of a note the disk holds its text. -/
theorem fetched_of_holdsNote {root : String} {top names : Place} {modified : Time.Instant}
    (h : t.IsPlain top) (hroot : t.locate root = .ok top) (hf : f.root = root)
    (hnote : HoldsNote t top names body modified) : f.fetched t (written names) = .ok body := by
  rw [fetched, hf, h.read_joined hroot hnote.file hnote.below]
  exact congrArg Except.ok (Text.ofBytes_toBytes body)

/-! ## One read -/

theorem read_of_kept (h : f.bodies.lookup path = some body) (t : Tree) :
    f.read t path = (.ok body, f) := by
  rw [read, h]

theorem read_of_unlisted (h : f.bodies.lookup path = none) (hpath : path ∉ f.catalogue.paths)
    (t : Tree) : f.read t path = (.error (.notFound path), f) := by
  have hnot : f.catalogue.contains path = false := by
    rw [← Bool.not_eq_true, Catalogue.contains_iff]
    exact hpath
  rw [read, h, hnot]
  rfl

theorem read_of_listed (h : f.bodies.lookup path = none) (hpath : path ∈ f.catalogue.paths)
    (t : Tree) : f.read t path = (f.fetched t path, f.keeping path (f.fetched t path)) := by
  rw [read, h, Catalogue.contains_iff.2 hpath, fetched]
  cases t.read (joined f.root path) <;> rfl

/-- A read changes nothing but what is kept. -/
theorem exists_read (f : Folder) (t : Tree) (path : String) :
    ∃ bodies, (f.read t path).2 = { f with bodies } := by
  cases hkept : f.bodies.lookup path with
  | some body => exact ⟨f.bodies, congrArg Prod.snd (read_of_kept hkept t)⟩
  | none =>
    by_cases hpath : path ∈ f.catalogue.paths
    · rw [read_of_listed hkept hpath]
      cases f.fetched t path with
      | ok body => exact ⟨(path, body) :: f.bodies, rfl⟩
      | error fault => exact ⟨f.bodies, rfl⟩
    · exact ⟨f.bodies, congrArg Prod.snd (read_of_unlisted hkept hpath t)⟩

theorem catalogue_read (f : Folder) (t : Tree) (path : String) :
    (f.read t path).2.catalogue = f.catalogue := by
  obtain ⟨bodies, hread⟩ := f.exists_read t path
  rw [hread]

theorem root_read (f : Folder) (t : Tree) (path : String) : (f.read t path).2.root = f.root := by
  obtain ⟨bodies, hread⟩ := f.exists_read t path
  rw [hread]

/-- What is kept after a read is what was kept before and the body that was read, if it is new. -/
theorem lookup_read (f : Folder) (t : Tree) (path later : String) :
    (f.read t path).2.bodies.lookup later =
      if later = path then (f.read t path).1.toOption else f.bodies.lookup later := by
  cases hkept : f.bodies.lookup path with
  | some body =>
    rw [read_of_kept hkept]
    split
    · next heq => rw [heq, hkept]; rfl
    · rfl
  | none =>
    by_cases hpath : path ∈ f.catalogue.paths
    · rw [read_of_listed hkept hpath]
      cases f.fetched t path with
      | ok body =>
        by_cases heq : later = path
        · simp [keeping, heq, Except.toOption]
        · simp [keeping, heq, List.lookup_cons, beq_false_of_ne heq]
      | error fault =>
        split
        · next heq => rw [heq]; exact hkept
        · rfl
    · rw [read_of_unlisted hkept hpath]
      split
      · next heq => rw [heq]; exact hkept
      · rfl

/-- What is read depends on the root, the catalogue and what is kept of the path. -/
theorem read_congr {g : Folder} (hroot : g.root = f.root) (hcatalogue : g.catalogue = f.catalogue)
    (hkept : g.bodies.lookup path = f.bodies.lookup path) (t : Tree) :
    (g.read t path).1 = (f.read t path).1 := by
  cases hlookup : f.bodies.lookup path with
  | some body => rw [read_of_kept (hkept.trans hlookup), read_of_kept hlookup]
  | none =>
    by_cases hpath : path ∈ f.catalogue.paths
    · rw [read_of_listed (hkept.trans hlookup) (hcatalogue ▸ hpath), read_of_listed hlookup hpath,
        fetched, fetched, hroot]
    · rw [read_of_unlisted (hkept.trans hlookup) (hcatalogue ▸ hpath),
        read_of_unlisted hlookup hpath]

/-- To read the same again gives the same, whatever has become of the disk, if it gave a body. -/
theorem read_again (h : (f.read t path).1 = .ok body) (t' : Tree) :
    ((f.read t path).2.read t' path).1 = .ok body := by
  refine congrArg Prod.fst (read_of_kept ?_ t')
  rw [lookup_read, if_pos rfl, h]
  rfl

/-- What was read of a path makes no difference to what is read then on the same disk. -/
theorem read_read (f : Folder) (t : Tree) (path later : String) :
    ((f.read t path).2.read t later).1 = (f.read t later).1 := by
  by_cases heq : later = path
  · subst heq
    cases hread : (f.read t later).1 with
    | ok body => exact read_again hread t
    | error fault =>
      rw [← hread]
      refine read_congr (f.root_read t later) (f.catalogue_read t later) ?_ t
      rw [lookup_read, if_pos rfl, hread]
      cases hkept : f.bodies.lookup later with
      | some body => simp [read_of_kept hkept] at hread
      | none => rfl
  · refine read_congr (f.root_read t path) (f.catalogue_read t path) ?_ t
    rw [lookup_read, if_neg heq]

end Folder

/-! ## Histories -/

/-- What may happen to a vault on disk. -/
inductive Event where
  /-- From now on this is on the disk. -/
  | changes (disk : Tree)
  | reads (path : String)
  | rescans

/-- A vault with the disk as it is now. -/
structure OnDisk where
  vault : Folder
  disk : Tree

namespace OnDisk

variable {x : OnDisk} {event : Event} {events earlier since before after : List Event}
  {path body : String}

/-- What is read of a path. -/
def read (x : OnDisk) (path : String) : Except Fault String := (x.vault.read x.disk path).1

/-- What the disk holds under a path. -/
def fetched (x : OnDisk) (path : String) : Except Fault String := x.vault.fetched x.disk path

/-- What comes of a scan: the new paths, and the vault after it. -/
def rescan (x : OnDisk) : Except Fault (List String × Folder) := x.vault.rescan x.disk

/-- The vault and the disk after an event. A scan that fails leaves them as they are. -/
def step (x : OnDisk) : Event → OnDisk
  | .changes disk => { x with disk }
  | .reads path => { x with vault := (x.vault.read x.disk path).2 }
  | .rescans =>
    match x.rescan with
    | .ok (_, vault) => { x with vault }
    | .error _ => x

/-- The vault and the disk after some events, the first of them first. -/
def run (x : OnDisk) (events : List Event) : OnDisk := events.foldl step x

/-- The condition holds of the vault each time something happens, and of what happens. -/
def Throughout (holds : OnDisk → Event → Prop) (x : OnDisk) (events : List Event) : Prop :=
  ∀ before event after, events = before ++ event :: after → holds (x.run before) event

/-- No scan succeeds. -/
def Unscanned : OnDisk → List Event → Prop :=
  Throughout fun x event => event = .rescans → ∃ fault, x.rescan = .error fault

/-- The path is not read with success. -/
def Unread (path : String) : OnDisk → List Event → Prop :=
  Throughout fun x event => event = .reads path → ∃ fault, x.read path = .error fault

/-- The last scan that succeeded came at the end of the earlier events, or was the one with which
the vault was opened. -/
structure LastScanned (x : OnDisk) (earlier since : List Event) : Prop where
  scanned : earlier = [] ∨ ∃ before scan, earlier = before ++ [.rescans] ∧
    (x.run before).rescan = .ok scan
  unscanned : Unscanned (x.run earlier) since

theorem run_append (x : OnDisk) (before after : List Event) :
    x.run (before ++ after) = (x.run before).run after :=
  List.foldl_append

theorem run_concat (x : OnDisk) (events : List Event) (event : Event) :
    x.run (events ++ [event]) = (x.run events).step event :=
  List.foldl_append

theorem throughout_concat_iff {holds : OnDisk → Event → Prop} :
    Throughout holds x (events ++ [event]) ↔ Throughout holds x events ∧
      holds (x.run events) event := by
  constructor
  · intro h
    refine ⟨fun before e after hsplit => ?_, h events event [] rfl⟩
    refine h before e (after ++ [event]) ?_
    rw [hsplit, List.append_assoc, List.cons_append]
  · rintro ⟨hevents, hevent⟩ before e after hsplit
    induction after using List.reverseRecOn with
    | nil =>
      obtain ⟨rfl, heq⟩ := List.append_inj' hsplit rfl
      exact List.singleton_inj.1 heq ▸ hevent
    | append_singleton after last _ =>
      rw [← List.cons_append, ← List.append_assoc] at hsplit
      exact hevents before e after (List.append_inj' hsplit rfl).1

theorem Throughout.of_append {holds : OnDisk → Event → Prop}
    (h : Throughout holds x (before ++ after)) : Throughout holds (x.run before) after := by
  intro before' e after' hsplit
  rw [← run_append]
  refine h (before ++ before') e after' ?_
  rw [hsplit, List.append_assoc]

/-- Every history has a last scan. -/
theorem exists_lastScanned (x : OnDisk) (events : List Event) :
    ∃ earlier since, events = earlier ++ since ∧ x.LastScanned earlier since := by
  induction events using List.reverseRecOn with
  | nil =>
    refine ⟨[], [], rfl, .inl rfl, fun before event after hsplit => ?_⟩
    simp at hsplit
  | append_singleton events event ih =>
    obtain ⟨earlier, since, rfl, hlast⟩ := ih
    by_cases hscan : event = .rescans ∧ ∃ scan, (x.run (earlier ++ since)).rescan = .ok scan
    · obtain ⟨rfl, scan, hscan⟩ := hscan
      refine ⟨earlier ++ since ++ [.rescans], [], by simp, ?_, fun before event after hsplit => ?_⟩
      · exact .inr ⟨earlier ++ since, scan, rfl, hscan⟩
      · simp at hsplit
    · refine ⟨earlier, since ++ [event], by simp, hlast.scanned, ?_⟩
      refine throughout_concat_iff.2 ⟨hlast.unscanned, fun hevent => ?_⟩
      rw [← run_append]
      cases hrescan : (x.run (earlier ++ since)).rescan with
      | error fault => exact ⟨fault, rfl⟩
      | ok scan => exact absurd ⟨hevent, scan, hrescan⟩ hscan

/-- Reads alone make no difference to what is read. -/
theorem read_run_reads (x : OnDisk) (paths : List String) (path : String) :
    (x.run (paths.map .reads)).read path = x.read path ∧
      (x.run (paths.map .reads)).vault.catalogue = x.vault.catalogue ∧
        (x.run (paths.map .reads)).disk = x.disk := by
  induction paths generalizing x with
  | nil => exact ⟨rfl, rfl, rfl⟩
  | cons first paths ih =>
    obtain ⟨hread, hcatalogue, hdisk⟩ := ih (x.step (.reads first))
    refine ⟨hread.trans (x.vault.read_read x.disk first path), ?_, hdisk⟩
    exact hcatalogue.trans (x.vault.catalogue_read x.disk first)

/-! ## One scan -/

/-- The vault was scanned just now: it has the catalogue of the disk, and keeps no body. -/
structure IsFresh (x : OnDisk) : Prop where
  catalogue : Folder.scan x.disk x.vault.root = .ok x.vault.catalogue
  bodies : x.vault.bodies = []

theorem isFresh_of_openAt {t : Tree} {root : String} {f : Folder}
    (h : Folder.openAt t root = .ok f) : IsFresh ⟨f, t⟩ := by
  obtain ⟨c, hscan, rfl⟩ := (Folder.openFrom_eq_ok_iff.1 h).2
  exact ⟨hscan, rfl⟩

/-- All that a scan does, if it succeeds. -/
theorem rescan_eq_ok_iff {created : List String} {vault : Folder} :
    x.rescan = .ok (created, vault) ↔
      ∃ fresh, Folder.scan x.disk x.vault.root = .ok fresh ∧
        created = fresh.paths.filter (!x.vault.catalogue.contains ·) ∧
        vault = { x.vault with catalogue := fresh, bodies := [] } := by
  unfold rescan Folder.rescan
  cases Folder.scan x.disk x.vault.root with
  | error fault => simp [bind, Except.bind]
  | ok fresh => simp [bind, Except.bind, pure, Except.pure, eq_comm]

theorem step_rescans_of_ok {created : List String} {vault : Folder}
    (h : x.rescan = .ok (created, vault)) : x.step .rescans = { x with vault } := by
  simp only [step, h]

theorem step_rescans_of_error {fault : Fault} (h : x.rescan = .error fault) :
    x.step .rescans = x := by
  simp only [step, h]

theorem root_step (x : OnDisk) (event : Event) : (x.step event).vault.root = x.vault.root := by
  cases event with
  | changes disk => rfl
  | reads path => exact x.vault.root_read x.disk path
  | rescans =>
    cases hrescan : x.rescan with
    | error fault => rw [step_rescans_of_error hrescan]
    | ok scan =>
      obtain ⟨fresh, _, _, hvault⟩ := rescan_eq_ok_iff.1 hrescan
      rw [step_rescans_of_ok hrescan, hvault]

theorem root_run (x : OnDisk) (events : List Event) : (x.run events).vault.root = x.vault.root := by
  induction events using List.reverseRecOn with
  | nil => rfl
  | append_singleton events event ih => rw [run_concat, root_step, ih]

/-- After its last scan the vault was as fresh as when it was opened. -/
theorem LastScanned.isFresh (h : x.LastScanned earlier since) (hopened : x.IsFresh) :
    (x.run earlier).IsFresh := by
  obtain rfl | ⟨before, scan, rfl, hscan⟩ := h.scanned
  · exact hopened
  · obtain ⟨fresh, hfresh, _, hvault⟩ := rescan_eq_ok_iff.1 hscan
    rw [run_concat, step_rescans_of_ok hscan, hvault]
    exact ⟨hfresh, rfl⟩

/-! ## After a scan -/

/-- Until a scan succeeds, an event is a read or leaves the vault as it is. -/
theorem step_of_unscanned (h : event = .rescans → ∃ fault, x.rescan = .error fault) :
    (∃ path, event = .reads path) ∨ (x.step event).vault = x.vault := by
  cases event with
  | changes disk => exact .inr rfl
  | reads path => exact .inl ⟨path, rfl⟩
  | rescans =>
    obtain ⟨fault, hfault⟩ := h rfl
    exact .inr (congrArg OnDisk.vault (step_rescans_of_error hfault))

/-- Until the next scan the catalogue stays. -/
theorem catalogue_run (h : x.Unscanned events) :
    (x.run events).vault.catalogue = x.vault.catalogue := by
  induction events using List.reverseRecOn with
  | nil => rfl
  | append_singleton events event ih =>
    obtain ⟨hevents, hevent⟩ := throughout_concat_iff.1 h
    rw [run_concat, ← ih hevents]
    obtain ⟨path, rfl⟩ | hsame := step_of_unscanned hevent
    · exact Folder.catalogue_read _ _ path
    · rw [hsame]

/-- A body that is kept stays until the next scan. -/
theorem lookup_run (h : x.Unscanned events) (hkept : x.vault.bodies.lookup path = some body) :
    (x.run events).vault.bodies.lookup path = some body := by
  induction events using List.reverseRecOn with
  | nil => exact hkept
  | append_singleton events event ih =>
    obtain ⟨hevents, hevent⟩ := throughout_concat_iff.1 h
    rw [run_concat]
    obtain ⟨read, rfl⟩ | hsame := step_of_unscanned hevent
    · refine (Folder.lookup_read _ _ read path).trans ?_
      split
      · next heq =>
        rw [← heq, Folder.read_of_kept (ih hevents)]
        rfl
      · exact ih hevents
    · rw [hsame]
      exact ih hevents

/-- Where a body that is kept comes from: it was read since the last scan, from the disk as it was
then, and it was the first one of its path. So the path is that of a note. -/
theorem exists_read_of_lookup (hfresh : x.IsFresh) (h : x.Unscanned events)
    (hkept : (x.run events).vault.bodies.lookup path = some body) :
    path ∈ x.vault.catalogue.paths ∧ ∃ before after, events = before ++ .reads path :: after ∧
      (x.run before).read path = .ok body ∧ (x.run before).fetched path = .ok body := by
  induction events using List.reverseRecOn with
  | nil =>
    rw [run, List.foldl_nil, hfresh.bodies] at hkept
    cases hkept
  | append_singleton events event ih =>
    obtain ⟨hevents, hevent⟩ := throughout_concat_iff.1 h
    have hbefore (hkept : (x.run events).vault.bodies.lookup path = some body) :
        path ∈ x.vault.catalogue.paths ∧ ∃ before after,
          events ++ [event] = before ++ .reads path :: after ∧
            (x.run before).read path = .ok body ∧ (x.run before).fetched path = .ok body := by
      obtain ⟨hpath, before, after, hsplit, hread⟩ := ih hevents hkept
      refine ⟨hpath, before, after ++ [event], ?_, hread⟩
      rw [hsplit, List.append_assoc, List.cons_append]
    rw [run_concat] at hkept
    obtain ⟨read, rfl⟩ | hsame := step_of_unscanned hevent
    · rw [step, Folder.lookup_read] at hkept
      split at hkept
      · next heq =>
        subst heq
        cases hlookup : (x.run events).vault.bodies.lookup path with
        | some kept =>
          rw [Folder.read_of_kept hlookup] at hkept
          exact hbefore (hlookup.trans hkept)
        | none =>
          by_cases hpath : path ∈ (x.run events).vault.catalogue.paths
          · have hread : (x.run events).read path = (x.run events).fetched path :=
              congrArg Prod.fst (Folder.read_of_listed hlookup hpath _)
            have hbody : (x.run events).read path = .ok body := by
              change ((x.run events).read path).toOption = some body at hkept
              cases hsent : (x.run events).read path with
              | ok sent => rw [hsent] at hkept; exact congrArg _ (Option.some.inj hkept)
              | error fault => rw [hsent] at hkept; cases hkept
            rw [catalogue_run hevents] at hpath
            exact ⟨hpath, events, [], rfl, hbody, hread ▸ hbody⟩
          · rw [Folder.read_of_unlisted hlookup hpath] at hkept
            cases hkept
      · exact hbefore hkept
    · rw [hsame] at hkept
      exact hbefore hkept

/-- What a vault shows after some events, of which none was a scan that succeeded. -/
structure IsSnapshot (x : OnDisk) (since : List Event) : Prop where
  catalogue : (x.run since).vault.catalogue = x.vault.catalogue
  /-- A path is not found exactly if the scan did not find it. -/
  notFound : ∀ path, (x.run since).read path = .error (.notFound path) ↔
    path ∉ x.vault.catalogue.paths
  /-- What was not read since the scan is what the disk holds now. -/
  first : ∀ path ∈ x.vault.catalogue.paths, x.Unread path since →
    (x.run since).read path = (x.run since).fetched path
  /-- What was read since the scan is read again. -/
  later : ∀ path before after body, since = before ++ .reads path :: after →
    (x.run before).read path = .ok body → (x.run since).read path = .ok body
  /-- No body is older than the scan. -/
  recent : ∀ path body, (x.run since).read path = .ok body →
    ∃ before after, since = before ++ after ∧ (x.run before).fetched path = .ok body
  listed : ∀ path body, (path, body) ∈ (x.run since).vault.bodies →
    path ∈ (x.run since).vault.catalogue.paths
  /-- The next scan that succeeds forgets the bodies and tells which paths are new, in order. -/
  created : ∀ created vault, (x.run since).rescan = .ok (created, vault) →
    vault.bodies = [] ∧ Order.Increasing compare created ∧
      ∀ path, path ∈ created ↔
        path ∈ vault.catalogue.paths ∧ path ∉ (x.run since).vault.catalogue.paths

/-- What is read is what is kept of the path; or the path is not that of a note; or it is what the
disk holds now. -/
theorem read_cases (x : OnDisk) (path : String) :
    (∃ body, x.vault.bodies.lookup path = some body ∧ x.read path = .ok body) ∨
      x.vault.bodies.lookup path = none ∧
        (path ∉ x.vault.catalogue.paths ∧ x.read path = .error (.notFound path) ∨
          path ∈ x.vault.catalogue.paths ∧ x.read path = x.fetched path) := by
  unfold read
  cases hkept : x.vault.bodies.lookup path with
  | some body => exact .inl ⟨body, rfl, congrArg Prod.fst (Folder.read_of_kept hkept _)⟩
  | none =>
    refine .inr ⟨rfl, ?_⟩
    by_cases hpath : path ∈ x.vault.catalogue.paths
    · exact .inr ⟨hpath, congrArg Prod.fst (Folder.read_of_listed hkept hpath _)⟩
    · exact .inl ⟨hpath, congrArg Prod.fst (Folder.read_of_unlisted hkept hpath _)⟩

/-- A body that was read since the last scan is kept. -/
theorem lookup_of_read (h : x.Unscanned (before ++ .reads path :: after))
    (hread : (x.run before).read path = .ok body) :
    (x.run (before ++ .reads path :: after)).vault.bodies.lookup path = some body := by
  have hkept : ((x.run before).step (.reads path)).vault.bodies.lookup path = some body := by
    refine (Folder.lookup_read _ _ path path).trans ?_
    rw [if_pos rfl]
    exact congrArg Except.toOption hread
  rw [List.append_cons] at h ⊢
  have hafter := h.of_append
  rw [run_concat] at hafter
  rw [run_append, run_concat]
  exact lookup_run hafter hkept

theorem isSnapshot_of_isFresh (hfresh : x.IsFresh) (h : x.Unscanned since) :
    x.IsSnapshot since where
  catalogue := catalogue_run h
  notFound path := by
    rw [← catalogue_run h]
    obtain ⟨body, hkept, hread⟩ | ⟨_, ⟨hpath, hread⟩ | ⟨hpath, hread⟩⟩ := read_cases _ path
    · have hpath := (exists_read_of_lookup hfresh h hkept).1
      rw [← catalogue_run h] at hpath
      simp [hread, hpath]
    · simp [hread, hpath]
    · have hne : (x.run since).fetched path ≠ .error (.notFound path) :=
        Folder.fetched_ne_notFound _ _ path path
      simp [hread, hpath, hne]
  first path hpath hunread := by
    obtain ⟨body, hkept, _⟩ | ⟨_, ⟨hnot, _⟩ | ⟨_, hread⟩⟩ := read_cases (x.run since) path
    · obtain ⟨before, after, hsplit, hread, _⟩ := (exists_read_of_lookup hfresh h hkept).2
      obtain ⟨fault, hfault⟩ := hunread before _ after hsplit rfl
      rw [hread] at hfault
      cases hfault
    · exact absurd (catalogue_run h ▸ hpath) hnot
    · exact hread
  later path before after body hsplit hread := by
    subst hsplit
    exact congrArg Prod.fst (Folder.read_of_kept (lookup_of_read h hread) _)
  recent path body hbody := by
    obtain ⟨kept, hkept, hread⟩ | ⟨_, ⟨_, hread⟩ | ⟨_, hread⟩⟩ := read_cases (x.run since) path
    · obtain ⟨before, after, hsplit, _, hfetched⟩ := (exists_read_of_lookup hfresh h hkept).2
      obtain rfl := Except.ok.inj (hread.symm.trans hbody)
      exact ⟨before, _, hsplit, hfetched⟩
    · rw [hread] at hbody
      cases hbody
    · exact ⟨since, [], (List.append_nil since).symm, hread ▸ hbody⟩
  listed path body hmem := by
    rw [catalogue_run h]
    cases hkept : (x.run since).vault.bodies.lookup path with
    | some kept => exact (exists_read_of_lookup hfresh h hkept).1
    | none => simpa using List.lookup_eq_none_iff.1 hkept _ hmem
  created created vault hrescan := by
    obtain ⟨fresh, hscan, rfl, rfl⟩ := rescan_eq_ok_iff.1 hrescan
    refine ⟨rfl, (Folder.increasing_paths_of_scanFrom hscan).filter _, fun path => ?_⟩
    rw [List.mem_filter, Bool.not_eq_true', ← Bool.not_eq_true, Catalogue.contains_iff]

end OnDisk
end NoteSearch.Vault

namespace NoteSearch.Workspace
open Vault

variable {w : Workspace} {vault fresh : Folder} {disk : Disk.Tree} {created : List String}

theorem keeps_publishAll (w : Workspace) (created : List String) :
    Keeps w (created.foldl publish w) := by
  induction created generalizing w with
  | nil => exact .refl w
  | cons path created ih => exact (w.keeps_publish path).trans (ih _)

/-- A scan that fails leaves everything as it was, the watchers included. -/
theorem rescan_of_error (hstore : w.store = .folder vault disk) {fault : Vault.Fault}
    (h : vault.rescan disk = .error fault) : w.rescan = (.error fault, w) := by
  simp only [rescan, hstore, h]

theorem rescan_of_ok (hstore : w.store = .folder vault disk)
    (h : vault.rescan disk = .ok (created, fresh)) :
    w.rescan.1 = .ok created ∧ w.rescan.2.store = .folder fresh disk := by
  simp only [rescan, hstore, h]
  exact ⟨trivial, (keeps_publishAll _ created).store⟩

end NoteSearch.Workspace

namespace NoteSearch.Vault.OnDisk
open Disk

theorem unscanned_of_notMem {x : OnDisk} {events : List Event} (h : .rescans ∉ events) :
    x.Unscanned events := by
  rintro before _ after rfl rfl
  exact absurd (List.mem_append_right before List.mem_cons_self) h

/-- Every history of a vault since it was opened, which stays in its directory, has a last scan that
succeeded, and what happened since then leads from what this scan found to a snapshot. A workspace
with a vault on disk scans it again as the vault does, and is as it was if that fails. -/
theorem reads_between_scans {t : Tree} {root : String} {f : Folder}
    (h : Folder.openAt t root = .ok f) :
    (∀ events,
        (∃ earlier since, events = earlier ++ since ∧ LastScanned ⟨f, t⟩ earlier since) ∧
          (run ⟨f, t⟩ events).vault.root = root) ∧
      (∀ earlier since, LastScanned ⟨f, t⟩ earlier since →
        (run ⟨f, t⟩ earlier).IsFresh ∧ (run ⟨f, t⟩ earlier).IsSnapshot since) ∧
      ∀ (w : Workspace) (x : OnDisk), w.store = .folder x.vault x.disk →
        (∀ fault, x.rescan = .error fault → w.rescan = (.error fault, w)) ∧
          ∀ created vault, x.rescan = .ok (created, vault) →
            w.rescan.1 = .ok created ∧ w.rescan.2.store = .folder vault x.disk := by
  refine ⟨fun events => ⟨exists_lastScanned _ events, ?_⟩, fun earlier since hlast => ?_,
    fun w x hstore => ⟨?_, ?_⟩⟩
  · obtain ⟨c, _, rfl⟩ := (Folder.openFrom_eq_ok_iff.1 h).2
    exact root_run _ events
  · have hfresh := hlast.isFresh (isFresh_of_openAt h)
    exact ⟨hfresh, isSnapshot_of_isFresh hfresh hlast.unscanned⟩
  · exact fun fault => Workspace.rescan_of_error hstore
  · exact fun created vault => Workspace.rescan_of_ok hstore

/-- Right after a scan of a plain directory, each note is read as it is on the disk. -/
theorem IsFresh.read_of_holdsNote {x : OnDisk} {top names : Place} {body : String}
    {modified : Time.Instant} (hfresh : x.IsFresh) (h : x.disk.IsPlain top)
    (hroot : x.disk.locate x.vault.root = .ok top)
    (hsight : Folder.isOutOfSight x.vault.root = false) (hhere : startsHere x.vault.root = false)
    (hnote : Folder.HoldsNote x.disk top names body modified) :
    x.read (written names) = .ok body := by
  obtain ⟨c, hscan, hpaths⟩ := Folder.exists_scan h hroot hsight hhere
  obtain rfl := Except.ok.inj (hscan.symm.trans hfresh.catalogue)
  have hlisted : written names ∈ x.vault.catalogue.paths :=
    (hpaths _).2 ⟨names, body, modified, hnote, rfl⟩
  have hkept : x.vault.bodies.lookup (written names) = none := by
    rw [hfresh.bodies]
    rfl
  rw [read, Folder.read_of_listed hkept hlisted]
  exact Folder.fetched_of_holdsNote h hroot rfl hnote

/-- A note that is read, then written over on the disk, and then read again: it is what it was
before until the directory is scanned. -/
theorem reads_of_note_written_over :
    let holding (body : String) : Tree := .ofTexts "v" [(["a.md"], some (body, {}))]
    ∃ f, Folder.openAt (holding "old") "v" = .ok f ∧
      let x : OnDisk := ⟨f, holding "old"⟩
      let events : List Event := [.reads "a.md", .changes (holding "new")]
      (x.run events).read "a.md" = .ok "old" ∧
        (x.run (events ++ [.rescans])).read "a.md" = .ok "new" := by
  intro holding
  have hproper (body : String) : Tree.AreProper [(["a.md"], some (body, {}))] :=
    ⟨by simp, by simpa using by decide, by simp⟩
  have hplain (body : String) : (holding body).IsPlain ["v"] := (hproper body).isPlain
  have hroot (body : String) : (holding body).locate "v" = .ok ["v"] :=
    (hproper body).locate (by decide)
  have hread {y : OnDisk} {body : String} (hfresh : y.IsFresh) (hv : y.vault.root = "v")
      (hdisk : y.disk = holding body) : y.read "a.md" = .ok body := by
    have hnote : Folder.HoldsNote (holding body) ["v"] ["a.md"] body {} :=
      (Folder.holdsNote_ofTexts_iff (hproper body)).2 ⟨by simp, by decide, by decide⟩
    refine @IsFresh.read_of_holdsNote y ["v"] ["a.md"] body {} hfresh ?_ ?_ ?_ ?_ ?_
    · exact hdisk ▸ hplain body
    · exact hdisk ▸ hv ▸ hroot body
    · rw [hv]
      decide
    · rw [hv]
      decide
    · exact hdisk ▸ hnote
  obtain ⟨c, hscan, -⟩ := Folder.exists_scan (hplain "old") (hroot "old") (by decide) (by decide)
  have hopen := Folder.openFrom_eq_ok_iff.2
    ⟨(hplain "old").isDirectory_root (hroot "old"), c, hscan, rfl⟩
  refine ⟨_, hopen, ?_⟩
  intro x events
  obtain ⟨hhistories, hsnapshots, -⟩ := reads_between_scans hopen
  constructor
  · obtain ⟨hfresh, hsnapshot⟩ :=
      hsnapshots [] events ⟨.inl rfl, unscanned_of_notMem (by simp [events])⟩
    exact hsnapshot.later "a.md" [] _ "old" rfl (hread hfresh (hhistories []).2 rfl)
  · have hv : (x.run events).vault.root = "v" := (hhistories events).2
    have hdisk : (x.run events).disk = holding "new" := rfl
    obtain ⟨c, hscan, -⟩ := Folder.exists_scan (hplain "new") (hroot "new") (by decide) (by decide)
    rw [← hdisk, ← hv] at hscan
    have hrescan := rescan_eq_ok_iff.2 ⟨c, hscan, rfl, rfl⟩
    have hlast : x.LastScanned (events ++ [.rescans]) [] :=
      ⟨.inr ⟨events, _, rfl, hrescan⟩, unscanned_of_notMem (by simp)⟩
    refine hread (hsnapshots _ _ hlast).1 (hhistories _).2 ?_
    rw [run_concat, step_rescans_of_ok hrescan]
    rfl

end NoteSearch.Vault.OnDisk

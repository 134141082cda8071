import NoteSearch.Proofs.Search.Ageless
import NoteSearch.Proofs.Vault.History
import NoteSearch.Proofs.Workspace.Reading

/-!
# A vault on disk and the same one in memory

A vault on disk that is a plain directory and a vault in memory to which its notes were written, in
any order, answer everything alike but for creation times. Only the vault on disk knows
directories without notes. So every search comes to the same in both.
-/
namespace NoteSearch.Vault
open Disk Folder

variable {t : Tree} {root path body : String} {top names : Place} {modified : Time.Instant}
  {edits : List Memory.Edit} {notes : List Note}

/-- The edits write the notes of a plain directory, each of them at least once, and do nothing
else. -/
structure Inserts (t : Tree) (top : Place) (edits : List Memory.Edit) : Prop where
  ofNotes : ∀ edit ∈ edits, ∃ names body created modified,
    HoldsNote t top names body modified ∧ edit = .write (written names) body created modified
  allNotes : ∀ names body modified, HoldsNote t top names body modified →
    ∃ created, .write (written names) body created modified ∈ edits

/-- Whatever is asked of a vault on disk and of one in memory, the answers are the same but for
creation times; and the folders on disk are those in memory and the directories. -/
structure Agrees (x : OnDisk) (top : Place) (m : Memory) : Prop
    extends Catalogue.SameButAge x.vault.catalogue m.catalogue where
  read : ∀ path, x.read path = m.read path
  increasing : Order.Increasing compare x.vault.catalogue.folders
  folders : ∀ folder, folder ∈ x.vault.catalogue.folders ↔ folder ∈ m.catalogue.folders ∨
    ∃ names, IsSeen x.disk top names ∧ x.disk.node? (top ++ names) = some .directory ∧
      folder = written names

/-! ## What the vault in memory holds -/

/-- A path holds what is in the file that it leads to, -/
theorem exists_contents (h : t.IsPlain top) (hinserts : Inserts t top edits)
    (hnote : HoldsNote t top names body modified) :
    ∃ created, Memory.contents edits (written names) = some ⟨body, created, modified⟩ := by
  obtain ⟨created, hmem⟩ := hinserts.allNotes names body modified hnote
  have hfound : (edits.reverse.find? (·.path == written names)).isSome = true :=
    List.find?_isSome.2 ⟨_, List.mem_reverse.2 hmem, by simp [Memory.Edit.path]⟩
  obtain ⟨edit, hedit⟩ := Option.isSome_iff_exists.1 hfound
  have hpath := List.find?_some hedit
  obtain ⟨names', body', created', modified', hnote', rfl⟩ :=
    hinserts.ofNotes edit (List.mem_reverse.1 (List.mem_of_find?_eq_some hedit))
  have hnames : names' = names :=
    written_inj (h.names _ hnote'.there) (h.names _ hnote.there) (eq_of_beq hpath)
  subst hnames
  obtain ⟨rfl, rfl⟩ := hnote.unique hnote'
  exact ⟨created', by rw [Memory.contents, hedit]; rfl⟩

/-- and nothing else. -/
theorem exists_holdsNote (hinserts : Inserts t top edits) {content : Memory.Content}
    (hcontent : Memory.contents edits path = some content) :
    ∃ names, HoldsNote t top names content.body content.modified ∧ path = written names := by
  obtain ⟨edit, hedit, hheld⟩ := Option.bind_eq_some_iff.1 hcontent
  have hpath := List.find?_some hedit
  obtain ⟨names, body, created, modified, hnote, rfl⟩ :=
    hinserts.ofNotes edit (List.mem_reverse.1 (List.mem_of_find?_eq_some hedit))
  obtain rfl := Option.some.inj hheld
  exact ⟨names, hnote, (eq_of_beq hpath).symm⟩

/-- The notes that a scan loads are those that are kept in memory, but for creation times. -/
theorem ageless_perm (h : t.IsPlain top) (hinserts : Inserts t top edits)
    (hnotes : AreNotesOf t top notes) :
    (notes.map Note.ageless).Perm ((Memory.ofEdits edits).notes.map Note.ageless) := by
  have hholds := Memory.toCopies_holds edits
  have hdisk : (notes.map Note.ageless).Nodup := by
    refine .of_map (·.path) ?_
    rw [List.map_map]
    exact hnotes.distinct
  have hmemory : ((Memory.ofEdits edits).notes.map Note.ageless).Nodup := by
    refine .of_map (·.path) ?_
    rw [List.map_map]
    exact hholds.distinct
  refine (List.perm_ext_iff_of_nodup hdisk hmemory).2 fun note => ?_
  rw [List.mem_map, List.mem_map]
  constructor
  · rintro ⟨_, hnote, rfl⟩
    obtain ⟨names, body, modified, hholdsNote, rfl⟩ := (hnotes.mem_iff _).1 hnote
    obtain ⟨created, hcontents⟩ := exists_contents h hinserts hholdsNote
    refine ⟨Memory.Content.note ⟨body, created, modified⟩ (written names), ?_, rfl⟩
    exact (hholds.note _).2 ⟨_, hcontents, rfl⟩
  · rintro ⟨kept, hkept, rfl⟩
    obtain ⟨content, hcontents, heq⟩ := (hholds.note kept).1 hkept
    obtain ⟨names, hnote, hpath⟩ := exists_holdsNote hinserts hcontents
    refine ⟨_, (hnotes.mem_iff _).2 ⟨names, content.body, content.modified, hnote, rfl⟩, ?_⟩
    rw [heq, hpath]
    rfl

/-! ## The two vaults -/

/-- What is read from the disk is what the vault in memory holds. -/
theorem read_eq (h : t.IsPlain top) (hroot : t.locate root = .ok top)
    (hinserts : Inserts t top edits) {f : Folder} (hf : f.root = root) (hbodies : f.bodies = [])
    (hpaths : ∀ path, path ∈ f.catalogue.paths ↔
      ∃ names body modified, HoldsNote t top names body modified ∧ path = written names)
    (path : String) : (f.read t path).1 = (Memory.ofEdits edits).read path := by
  have hkept : f.bodies.lookup path = none := by rw [hbodies]; rfl
  rw [(Memory.toCopies_holds edits).read]
  by_cases hpath : path ∈ f.catalogue.paths
  · rw [read_of_listed hkept hpath]
    obtain ⟨names, body, modified, hnote, rfl⟩ := (hpaths path).1 hpath
    obtain ⟨created, hcontents⟩ := exists_contents h hinserts hnote
    rw [hcontents]
    exact fetched_of_holdsNote h hroot hf hnote
  · have hnone : Memory.contents edits path = none := by
      cases hcontents : Memory.contents edits path with
      | none => rfl
      | some content =>
        obtain ⟨names, hnote, rfl⟩ := exists_holdsNote hinserts hcontents
        exact absurd ((hpaths _).2 ⟨names, _, _, hnote, rfl⟩) hpath
    rw [read_of_unlisted hkept hpath, hnone]
    rfl

/-- The vault of a plain directory can be opened, in whichever order its entries are listed, and
agrees with the one in memory. -/
theorem exists_openFrom_agrees {entries : List String} (h : t.IsPlain top)
    (hroot : t.locate root = .ok top) (hlists : Lists t root top entries)
    (hinserts : Inserts t top edits) :
    ∃ f, openFrom t root entries = .ok f ∧ Agrees ⟨f, t⟩ top (Memory.ofEdits edits) := by
  obtain ⟨notes, hnotes, hopen⟩ := hlists.exists_openFrom h hroot
  have hsame : (Catalogue.ofNotes notes).ageless = (Memory.ofEdits edits).catalogue.ageless := by
    rw [(Memory.ofEdits edits).inStep.catalogued]
    exact Catalogue.ageless_ofNotes_eq hnotes.distinct (ageless_perm h hinserts hnotes)
  have hfolders : (Catalogue.ofNotes notes).folders = (Memory.ofEdits edits).catalogue.folders :=
    congrArg (·.folders) hsame
  have hages : Catalogue.SameButAge
      ((Catalogue.ofNotes notes).withFolders (foldersIn t root entries))
      (Memory.ofEdits edits).catalogue :=
    Catalogue.sameButAge_of_entries (congrArg (·.entries) hsame) (congrArg (·.backlinks) hsame)
  refine ⟨_, hopen, hages, ?_, ?_, fun folder => ?_⟩
  · exact read_eq h hroot hinserts rfl rfl fun path => hnotes.mem_paths_iff _
  · exact Catalogue.increasing_folders_withFolders _ (Order.increasing_ofList _)
  · rw [Catalogue.mem_folders_withFolders_iff, hfolders, or_comm,
      hlists.mem_foldersIn_iff h hroot]
    refine or_congr_right (and_iff_left_of_imp ?_)
    rintro ⟨names, hseen, -, rfl⟩ hempty
    have hnames := isEmpty_written (h.names _ hseen.there)
    rw [hempty] at hnames
    exact hseen.below (List.isEmpty_iff.1 hnames.symm)

/-- Reads do not end the agreement. -/
theorem Agrees.run_reads {x : OnDisk} {m : Memory} (h : Agrees x top m) (paths : List String) :
    Agrees (x.run (paths.map .reads)) top m := by
  obtain ⟨hcatalogue, hdisk⟩ := (x.read_run_reads paths "").2
  constructor
  case toSameButAge => exact hcatalogue ▸ h.toSameButAge
  case read => exact fun path => (x.read_run_reads paths path).1.trans (h.read path)
  case increasing => exact hcatalogue ▸ h.increasing
  case folders => rw [hcatalogue, hdisk]; exact h.folders

end NoteSearch.Vault

namespace NoteSearch.Workspace
open Search Vault

variable {w w' : Workspace} {request : Request}

/-! ## Searches -/

theorem sent_ageless (w : Workspace) (index : Nat) (candidates : List Hit) :
    w.sent index (candidates.map Hit.ageless) = w.sent index candidates := by
  induction candidates generalizing index with
  | nil => rfl
  | cons hit candidates ih =>
    rw [List.map_cons, sent, ih, sent]
    rfl

theorem arrivals_ageless (w : Workspace) (candidates : List Hit) :
    w.arrivals (candidates.map Hit.ageless) = w.arrivals candidates := by
  have hpaths : (candidates.map Hit.ageless).map (·.path) = candidates.map (·.path) :=
    List.map_map
  rw [arrivals, sent_ageless, hpaths, arrivals]

/-- A search comes to what the run comes to that knows of no creation times, but for these. -/
theorem search_ageless (w : Workspace) (request : Request) (cancelled : Bool) :
    (w.search request cancelled).map (List.map Hit.ageless) =
      ((run w.backend.ageless { arrivals := w.arrivals } request
        (if cancelled then ({} : Version).ticket else .unlimited)).run.run
          (if cancelled then Signals.bump {} else {})).1 := by
  rw [run_ageless _ _ _ _ w.arrivals_ageless]
  unfold search
  dsimp only
  rw [run_course_none]
  generalize run w.backend { arrivals := w.arrivals } request
    (if cancelled then ({} : Version).ticket else .unlimited) = x
  generalize (if cancelled then Signals.bump {} else {} : Signals) = s
  rw [ExceptT.run_map, StateT.run_map]
  rfl

/-- Where queries are answered alike but for creation times, and candidates are read alike, searches
come to the same but for these times. -/
theorem search_ageless_congr (havailable : w'.isAvailable = w.isAvailable)
    (hanswer : ∀ query, (w'.answer query).map (List.map Hit.ageless) =
      (w.answer query).map (List.map Hit.ageless))
    (hagree : ∀ candidates, Agree w w' candidates) (cancelled : Bool) :
    (w'.search request cancelled).map (List.map Hit.ageless) =
      (w.search request cancelled).map (List.map Hit.ageless) := by
  have hbackend : w'.backend.ageless = w.backend.ageless := by
    unfold backend Backend.ageless
    rw [havailable, funext hanswer]
  have harrivals : w'.arrivals = w.arrivals := funext fun candidates => (hagree candidates).arrivals
  rw [search_ageless, search_ageless, hbackend, harrivals]

/-- On vaults that agree, searches come to the same but for creation times. -/
theorem search_of_agrees {x : OnDisk} {top : Disk.Place} {m : Memory} (h : Agrees x top m)
    (hserves : w.service = .on) (request : Request) (cancelled : Bool) :
    (search { w with store := .folder x.vault x.disk } request cancelled).map
        (List.map Hit.ageless) =
      (search { w with store := .memory m } request cancelled).map (List.map Hit.ageless) := by
  refine @search_ageless_congr { w with store := .memory m }
    { w with store := .folder x.vault x.disk } request ?_ (fun query => ?_)
      (fun candidates => ⟨fun _ _ => rfl, ?_⟩) cancelled
  · unfold isAvailable
    simp only [hserves]
  · unfold answer
    simp only [hserves]
    exact h.answer query
  · exact fun hit _ => h.read hit.path

/-- A plain directory can be opened as a vault, in whichever order its entries are listed. Whatever
is read then, it agrees with a vault in memory to which its notes were written in any order; and
every search comes to the same on the two, but for creation times. The entries that a scan asks for
are listed in such a way, unless the directory is out of sight or was given with a dot at the
start. -/
theorem disk_agrees_with_memory {t : Disk.Tree} {root : String} {top : Disk.Place}
    {edits : List Memory.Edit} (h : t.IsPlain top) (hroot : t.locate root = .ok top)
    (hinserts : Inserts t top edits) :
    (∀ entries, Folder.Lists t root top entries →
      ∃ f, Folder.openFrom t root entries = .ok f ∧ ∀ paths : List String,
        Agrees (OnDisk.run ⟨f, t⟩ (paths.map .reads)) top (.ofEdits edits) ∧
          ∀ w : Workspace, w.service = .on → ∀ request cancelled,
            (search { w with
              store := .folder (OnDisk.run ⟨f, t⟩ (paths.map .reads)).vault t } request
                cancelled).map (List.map Hit.ageless) =
              (search { w with store := .memory (.ofEdits edits) } request cancelled).map
                (List.map Hit.ageless)) ∧
    (Folder.isOutOfSight root = false → Disk.startsHere root = false →
      Folder.Lists t root top (Folder.listed t root)) := by
  refine ⟨fun entries hlists => ?_, Folder.lists_listed h hroot⟩
  obtain ⟨f, hopen, hagrees⟩ := exists_openFrom_agrees h hroot hlists hinserts
  refine ⟨f, hopen, fun paths => ⟨hagrees.run_reads paths, fun w hserves request cancelled => ?_⟩⟩
  have hsearch := search_of_agrees (hagrees.run_reads paths) hserves request cancelled
  have hdisk := (OnDisk.read_run_reads ⟨f, t⟩ paths "").2.2
  rwa [hdisk] at hsearch

/-- A directory with a note, a picture, a note that is hidden, and a folder with two notes in it.
Its entries are listed in another order than the notes are written to memory, where they were
created later. -/
theorem nested_directory_agrees :
    let texts : List (Disk.Place × Option (String × Time.Instant)) :=
      [(["b.md"], some ("[[a]]", {})), (["p.png"], some ("~", {})),
        ([".d.md"], some ("#no", {})), (["f"], none),
        (["f", "a.md"], some ("#tag", { seconds := 7 })), (["f", "c.md"], some ("é", {}))]
    let disk : Disk.Tree := .ofTexts "v" texts
    let entries := ["v/f/c.md", "v/p.png", "v/b.md", "v/f", "v/f/a.md"]
    let edits : List Memory.Edit := [.write "f/a.md" "#tag" { seconds := 9 } { seconds := 7 },
      .write "f/c.md" "é" { seconds := 9 } {}, .write "b.md" "[[a]]" { seconds := 9 } {}]
    (∃ f, Folder.openFrom disk "v" entries = .ok f ∧ Agrees ⟨f, disk⟩ ["v"] (.ofEdits edits)) ∧
      Folder.Lists disk "v" ["v"] (Folder.listed disk "v") := by
  intro texts disk entries edits
  have hproper : Disk.Tree.AreProper texts := ⟨by decide, by decide, by decide⟩
  have hroot : disk.locate "v" = .ok ["v"] := hproper.locate (by decide)
  have hlists : Folder.Lists disk "v" ["v"] entries :=
    Folder.lists_ofTexts hproper [["f", "c.md"], ["p.png"], ["b.md"], ["f"], ["f", "a.md"]]
      (by decide)
  have hinserts : Inserts disk ["v"] edits := by
    refine ⟨fun edit hedit => ?_, fun names body modified hnote => ?_⟩
    · simp only [edits, List.mem_cons, List.not_mem_nil, or_false] at hedit
      obtain rfl | rfl | rfl := hedit
      · exact ⟨["f", "a.md"], "#tag", _, _, (Folder.holdsNote_ofTexts_iff hproper).2
          ⟨by simp [texts], by decide, by decide⟩, rfl⟩
      · exact ⟨["f", "c.md"], "é", _, _, (Folder.holdsNote_ofTexts_iff hproper).2
          ⟨by simp [texts], by decide, by decide⟩, rfl⟩
      · exact ⟨["b.md"], "[[a]]", _, _, (Folder.holdsNote_ofTexts_iff hproper).2
          ⟨by simp [texts], by decide, by decide⟩, rfl⟩
    · obtain ⟨hmem, hshown, hnamed⟩ := (Folder.holdsNote_ofTexts_iff hproper).1 hnote
      refine ⟨{ seconds := 9 }, ?_⟩
      -- the picture is not named like a note, and one note is hidden
      simp only [texts, List.mem_cons, Prod.mk.injEq, Option.some.injEq, reduceCtorEq, and_false,
        List.not_mem_nil, or_false, false_or] at hmem
      obtain ⟨rfl, rfl, rfl⟩ | ⟨rfl, -, -⟩ | ⟨rfl, -, -⟩ | ⟨rfl, rfl, rfl⟩ | ⟨rfl, rfl, rfl⟩ := hmem
      · decide
      · exact absurd hnamed (by decide)
      · exact absurd hshown (by decide)
      · decide
      · decide
  obtain ⟨hagree, hlisted⟩ := disk_agrees_with_memory hproper.isPlain hroot hinserts
  obtain ⟨f, hopen, hf⟩ := hagree entries hlists
  exact ⟨⟨f, hopen, (hf []).1⟩, hlisted (by decide) (by decide)⟩

end NoteSearch.Workspace

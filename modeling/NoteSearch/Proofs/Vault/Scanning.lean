import NoteSearch.Proofs.Disk.Plain
import NoteSearch.Proofs.Text.Utf8
import NoteSearch.Proofs.Vault.Memory
import NoteSearch.Vault.Folder

/-!
# What a scan finds

A scan walks through a directory and loads what is a file with the ending of notes; the
directories become folders. In a plain directory it comes once across everything on the way to which
no name is hidden, and every note that it loads is that of the text in the file.
-/
namespace NoteSearch.Vault.Folder
open Disk Time

variable {t : Tree} {root path : String} {entries : List String} {c : Catalogue}
  {top names : Place} {fuel : Nat}

/-- The entries that a scan takes for directories, as they go on below the root. -/
def foldersIn (t : Tree) (root : String) (entries : List String) : List String :=
  ((entriesBelow root entries).filter (t.isDirectory ·.1)).map (·.2)

/-- The entries that a scan takes for notes. -/
def notesIn (t : Tree) (root : String) (entries : List String) : List (String × String) :=
  ((entriesBelow root entries).filter (!t.isDirectory ·.1)).filter (isNoteName ·.2)

theorem scanFrom_eq (t : Tree) (root : String) (entries : List String) :
    scanFrom t root entries =
      ((notesIn t root entries).mapM fun entry => load t entry.1 entry.2).map fun notes =>
        (Catalogue.ofNotes notes).withFolders (foldersIn t root entries) := by
  unfold scanFrom foldersIn notesIn
  simp only [List.partition_eq_filter_filter]
  rfl

theorem openFrom_eq_ok_iff {f : Folder} : openFrom t root entries = .ok f ↔
    t.isDirectory root = true ∧ ∃ c, scanFrom t root entries = .ok c ∧
      f = { root, catalogue := c } := by
  unfold openFrom
  cases t.isDirectory root with
  | false => simp [bind, Except.bind, throw, throwThe, MonadExceptOf.throw]
  | true =>
    cases scanFrom t root entries with
    | error fault => simp [bind, Except.bind]
    | ok c => simp [bind, Except.bind, pure, Except.pure, eq_comm]

theorem increasing_paths_of_scanFrom (h : scanFrom t root entries = .ok c) :
    Order.Increasing compare c.paths := by
  rw [scanFrom_eq] at h
  cases hnotes : (notesIn t root entries).mapM fun entry => load t entry.1 entry.2 with
  | error fault =>
    rw [hnotes] at h
    cases h
  | ok notes =>
    rw [hnotes] at h
    rw [← Except.ok.inj h]
    exact Catalogue.increasing_paths_ofNotes notes

/-! ## A dot at the start

A listing leaves out a dot with which the directory was given, so that none of the entries is
written after the directory. Such a vault seems to be empty.
-/

theorem head?_of_mem_walk {below : String} (hbelow : below.toList.head? ≠ some '.')
    (h : path ∈ walk t root fuel below) : path.toList.head? ≠ some '.' := by
  induction fuel generalizing below with
  | zero => cases h
  | succ fuel ih =>
    rw [walk] at h
    split at h
    · cases h
    · obtain ⟨name, hname, hpath⟩ := List.mem_flatMap.1 h
      have hshown : isHidden name = false := by simpa using (List.mem_filter.1 hname).2
      have hjoined : (joined below name).toList.head? ≠ some '.' := by
        by_cases hempty : below = ""
        · rw [hempty]
          exact beq_eq_false_iff_ne.1 hshown
        · rwa [head?_joined hempty]
      obtain rfl | hpath := List.mem_cons.1 hpath
      · exact hjoined
      · split at hpath
        · exact ih hjoined hpath
        · cases hpath

theorem startsHere_of_mem_listed (hhere : startsHere root = true) (h : path ∈ listed t root) :
    startsHere path = false := by
  rw [listed] at h
  split at h
  · cases h
  · obtain ⟨below, hbelow, rfl⟩ := List.mem_map.1 h
    rw [rootListed, if_pos hhere]
    cases hparts : (parts root).dropWhile fun part => part == "" || part == "." with
    | nil =>
      refine Bool.eq_false_iff.2 fun hdot => ?_
      exact head?_of_mem_walk (by simp) hbelow (head?_of_startsHere hdot)
    | cons part rest =>
      have hshown : part ≠ "" ∧ part ≠ "." := by
        have hhead := List.head?_dropWhile_not (fun part => part == "" || part == ".") (parts root)
        simpa [hparts] using hhead
      have hsublist : (part :: rest).Sublist (parts root) := hparts ▸ List.dropWhile_sublist _
      have hwritten : parts ("/".intercalate (part :: rest)) = part :: rest :=
        parts_intercalate (fun p hp => noSlash_of_mem_parts (hsublist.mem hp)) (by simp)
      have hne : "/".intercalate (part :: rest) ≠ "" := by
        intro hempty
        rw [hempty] at hwritten
        exact hshown.1 (List.head_eq_of_cons_eq hwritten).symm
      rw [startsHere_joined hne, startsHere, hwritten, List.head?_cons, beq_eq_false_iff_ne]
      exact fun hdot => hshown.2 (Option.some.inj hdot)

/-- A scan of a directory that is given with a dot at the start finds nothing. -/
theorem scan_of_startsHere (hhere : startsHere root = true) (t : Tree) :
    scan t root = .ok ((Catalogue.ofNotes []).withFolders []) := by
  have hnone : entriesBelow root (listed t root) = [] := by
    refine List.filterMap_eq_nil_iff.2 fun full hfull => ?_
    cases hrest : (components root).isPrefixOf? (components full) with
    | none =>
      rw [relativePath?, hrest]
      rfl
    | some rest =>
      -- the entry would start with a dot as well
      have hhead : (components full).head? = some "." := by
        rw [← List.isPrefixOf?_eq_some_iff_append_eq.1 hrest, List.head?_append,
          head?_components_iff.2 hhere]
        rfl
      have hdot := head?_components_iff.1 hhead
      rw [startsHere_of_mem_listed hhere hfull] at hdot
      cases hdot
  rw [scan, scanFrom_eq, notesIn, foldersIn, hnone]
  rfl

/-! ## Walking through a plain directory -/

/-- A place below a directory that a scan comes across. -/
structure IsSeen (t : Tree) (top names : Place) : Prop where
  there : t.node? (top ++ names) ≠ none
  below : names ≠ []
  shown : ∀ name ∈ names, isHidden name = false

theorem locate_written (h : t.IsPlain top) (hroot : t.locate root = .ok top)
    (hthere : t.node? (top ++ names) ≠ none) :
    t.locate (if (written names).isEmpty then root else joined root (written names)) =
      .ok (top ++ names) := by
  rw [isEmpty_written (h.names names hthere)]
  cases hnames : names.isEmpty with
  | true =>
    rw [List.isEmpty_iff.1 hnames, List.append_nil]
    exact hroot
  | false => exact h.locate_joined hroot hthere (by simpa using hnames)

/-- A walk goes on from each name that is not hidden, if that is a directory. -/
theorem walk_succ (h : t.IsPlain top) (hroot : t.locate root = .ok top)
    (hdir : t.node? (top ++ names) = some .directory) :
    walk t root (fuel + 1) (written names) =
      ((t.names (top ++ names)).filter (!isHidden ·)).flatMap fun name =>
        written (names ++ [name]) ::
          (if t.node? (top ++ (names ++ [name])) = some .directory then
            walk t root fuel (written (names ++ [name])) else []) := by
  rw [walk, locate_written h hroot (by simp [hdir])]
  refine List.flatMap_congr fun name hname => ?_
  have hthere := Tree.mem_names_iff.1 (List.mem_of_mem_filter hname)
  rw [List.append_assoc] at hthere
  obtain ⟨node, hnode⟩ := Option.ne_none_iff_exists'.1 hthere
  have hisdir := h.isDirectory_joined hroot hnode (by simp)
  dsimp only
  rw [← written_concat, hisdir, hnode]
  cases node <;> rfl

/-- What a walk comes across, as deep as the fuel lasts. -/
theorem mem_walk_iff (h : t.IsPlain top) (hroot : t.locate root = .ok top)
    (hdir : t.node? (top ++ names) = some .directory) :
    path ∈ walk t root fuel (written names) ↔
      ∃ names', names' ≠ [] ∧ names'.length ≤ fuel ∧ (∀ name ∈ names', isHidden name = false) ∧
        t.node? (top ++ (names ++ names')) ≠ none ∧ path = written (names ++ names') := by
  induction fuel generalizing names path with
  | zero =>
    refine ⟨fun hmem => absurd hmem List.not_mem_nil, ?_⟩
    rintro ⟨names', hne, hlength, -⟩
    exact absurd (List.length_eq_zero_iff.1 (Nat.le_zero.1 hlength)) hne
  | succ fuel ih =>
    rw [walk_succ h hroot hdir, List.mem_flatMap]
    constructor
    · rintro ⟨name, hname, hpath⟩
      obtain ⟨hlisted, hshown⟩ := List.mem_filter.1 hname
      have hthere := Tree.mem_names_iff.1 hlisted
      rw [List.append_assoc] at hthere
      rw [Bool.not_eq_true'] at hshown
      obtain rfl | hpath := List.mem_cons.1 hpath
      · exact ⟨[name], by simp, by simp, by simpa using hshown, hthere, rfl⟩
      · split at hpath
        · next hdir' =>
          obtain ⟨names', _, hlength, hshown', hthere', rfl⟩ := (ih hdir').1 hpath
          rw [List.append_assoc] at hthere' ⊢
          refine ⟨name :: names', by simp, by simpa using hlength, ?_, hthere', rfl⟩
          exact List.forall_mem_cons.2 ⟨hshown, hshown'⟩
        · cases hpath
    · rintro ⟨names', hne, hlength, hshown, hthere, rfl⟩
      obtain ⟨name, rest, rfl⟩ := List.exists_cons_of_ne_nil hne
      obtain ⟨hname, hrest⟩ := List.forall_mem_cons.1 hshown
      rw [List.append_cons] at hthere ⊢
      -- the first name leads to what is sought, or to a directory on the way
      by_cases hend : rest = []
      · subst hend
        rw [List.append_nil] at hthere ⊢
        refine ⟨name, List.mem_filter.2 ⟨Tree.mem_names_iff.2 ?_, by simp [hname]⟩,
          List.mem_cons_self⟩
        rwa [List.append_assoc]
      · have hdir' := h.directory_of_prefix (names ++ [name]) rest hthere hend
        refine ⟨name, List.mem_filter.2 ⟨Tree.mem_names_iff.2 ?_, by simp [hname]⟩, ?_⟩
        · rw [List.append_assoc, hdir']
          simp
        · rw [if_pos hdir']
          refine List.mem_cons_of_mem _ ((ih hdir').2 ?_)
          exact ⟨rest, hend, by simpa using hlength, hrest, hthere, rfl⟩

/-- A walk comes across nothing twice. -/
theorem nodup_walk (h : t.IsPlain top) (hroot : t.locate root = .ok top)
    (hdir : t.node? (top ++ names) = some .directory) :
    (walk t root fuel (written names)).Nodup := by
  induction fuel generalizing names with
  | zero => exact .nil
  | succ fuel ih =>
    rw [walk_succ h hroot hdir, List.nodup_flatMap]
    -- whatever is found by way of a name is written with it
    have hway : ∀ name ∈ t.names (top ++ names), ∀ path,
        path ∈ written (names ++ [name]) :: (if t.node? (top ++ (names ++ [name])) = some .directory
          then walk t root fuel (written (names ++ [name])) else []) →
        ∃ rest, (∀ n ∈ names ++ name :: rest, IsName n) ∧
          path = written (names ++ name :: rest) := by
      intro name hname path hpath
      have hthere := Tree.mem_names_iff.1 hname
      rw [List.append_assoc] at hthere
      obtain rfl | hpath := List.mem_cons.1 hpath
      · exact ⟨[], h.names _ hthere, rfl⟩
      · split at hpath
        · next hdir' =>
          obtain ⟨rest, -, -, -, hthere', rfl⟩ := (mem_walk_iff h hroot hdir').1 hpath
          rw [← List.append_cons] at hthere' ⊢
          exact ⟨rest, h.names _ hthere', rfl⟩
        · cases hpath
    refine ⟨fun name hname => ?_, ?_⟩
    · have hthere := Tree.mem_names_iff.1 (List.mem_of_mem_filter hname)
      rw [List.append_assoc] at hthere
      split
      · next hdir' =>
        refine List.nodup_cons.2 ⟨fun hmem => ?_, ih hdir'⟩
        obtain ⟨rest, hne, -, -, hthere', heq⟩ := (mem_walk_iff h hroot hdir').1 hmem
        have hsame := written_inj (h.names _ hthere) (h.names _ hthere') heq
        simp [hne] at hsame
      · exact List.nodup_singleton _
    · have hnames : ((t.names (top ++ names)).filter (!isHidden ·)).Nodup :=
        (Tree.nodup_names h.distinct _).filter _
      refine hnames.imp_of_mem fun {name name'} hname hname' hne => ?_
      intro path hpath hpath'
      obtain ⟨rest, hproper, rfl⟩ := hway name (List.mem_of_mem_filter hname) path hpath
      obtain ⟨rest', hproper', heq⟩ := hway name' (List.mem_of_mem_filter hname') _ hpath'
      have hsame := written_inj hproper hproper' heq
      exact hne (List.head_eq_of_cons_eq (List.append_cancel_left hsame))

/-! ## The listing of a plain directory -/

/-- A listing of all that is seen below a directory: every entry comes once, in any order, and is
written after the directory as that was given. -/
def Lists (t : Tree) (root : String) (top : Place) (entries : List String) : Prop :=
  ∃ seen : List Place, seen.Nodup ∧ (∀ names, names ∈ seen ↔ IsSeen t top names) ∧
    entries = seen.map fun names => joined root (written names)

theorem mem_walk_top_iff (h : t.IsPlain top) (hroot : t.locate root = .ok top) :
    path ∈ walk t root (depthBound t) "" ↔ ∃ names, IsSeen t top names ∧ path = written names := by
  have htop : t.node? (top ++ []) = some .directory := by rw [List.append_nil, h.directory]
  refine (mem_walk_iff h hroot htop).trans ⟨?_, ?_⟩
  · rintro ⟨names, hne, -, hshown, hthere, rfl⟩
    exact ⟨names, ⟨hthere, hne, hshown⟩, rfl⟩
  · rintro ⟨names, hseen, rfl⟩
    refine ⟨names, hseen.below, ?_, hseen.shown, hseen.there, rfl⟩
    have hdepth := h.length_le hseen.there
    unfold depthBound linkLimit
    omega

theorem IsSeen.parts_written (h : t.IsPlain top) (hseen : IsSeen t top names) :
    parts (written names) = names :=
  Disk.parts_written (h.names _ hseen.there) hseen.below

/-- The entries of a plain directory are such a listing, if the directory is in sight and was not
given with a dot at the start, which is not written in the listing. -/
theorem lists_listed (h : t.IsPlain top) (hroot : t.locate root = .ok top)
    (hsight : isOutOfSight root = false) (hhere : startsHere root = false) :
    Lists t root top (listed t root) := by
  have htop : t.node? (top ++ []) = some .directory := by rw [List.append_nil, h.directory]
  have hwalk : ∀ path ∈ walk t root (depthBound t) "",
      IsSeen t top (parts path) ∧ written (parts path) = path := by
    intro path hpath
    obtain ⟨names, hseen, rfl⟩ := (mem_walk_top_iff h hroot).1 hpath
    rw [hseen.parts_written h]
    exact ⟨hseen, rfl⟩
  refine ⟨(walk t root (depthBound t) "").map parts, ?_, fun names => ?_, ?_⟩
  · refine (nodup_walk h hroot htop).map_on fun path hpath path' hpath' hsame => ?_
    rw [← (hwalk path hpath).2, hsame, (hwalk path' hpath').2]
  · rw [List.mem_map]
    constructor
    · rintro ⟨path, hpath, rfl⟩
      exact (hwalk path hpath).1
    · intro hseen
      exact ⟨written names, (mem_walk_top_iff h hroot).2 ⟨names, hseen, rfl⟩,
        hseen.parts_written h⟩
  · rw [listed, hsight, rootListed, hhere, List.map_map]
    refine List.map_congr_left fun path hpath => ?_
    rw [Function.comp_apply, (hwalk path hpath).2]
    rfl

/-- An entry goes on below the directory as it is written there. -/
theorem relativePath?_joined (h : t.IsPlain top) (hroot : t.locate root = .ok top)
    (hseen : IsSeen t top names) :
    relativePath? root (joined root (written names)) = some (written names) := by
  have hnames := h.names _ hseen.there
  obtain ⟨name, rest, rfl⟩ := List.exists_cons_of_ne_nil hseen.below
  have hrest : (components root).isPrefixOf? (components root ++ name :: rest) =
      some (name :: rest) := List.isPrefixOf?_eq_some_iff_append_eq.2 rfl
  rw [relativePath?, components_joined (Tree.ne_empty_of_locate hroot) hnames hseen.below, hrest,
    ← intercalate_names hnames]

example : relativePath? "/a/./v/" "/a/v/f/b.md" = some "f/b.md" := by decide
example : relativePath? "./v" "v/a.md" = none := by decide

theorem Lists.entriesBelow_eq (hlists : Lists t root top entries) (h : t.IsPlain top)
    (hroot : t.locate root = .ok top) : ∃ seen : List Place,
      seen.Nodup ∧ (∀ names, names ∈ seen ↔ IsSeen t top names) ∧
      entriesBelow root entries =
        seen.map fun names => (joined root (written names), written names) := by
  obtain ⟨seen, hnodup, hseen, rfl⟩ := hlists
  refine ⟨seen, hnodup, hseen, ?_⟩
  rw [entriesBelow, List.filterMap_map, ← List.filterMap_eq_map]
  refine List.filterMap_congr fun names hnames => ?_
  rw [Function.comp_apply, relativePath?_joined h hroot ((hseen names).1 hnames)]
  rfl

theorem Lists.mem_entriesBelow_iff (hlists : Lists t root top entries) (h : t.IsPlain top)
    (hroot : t.locate root = .ok top) {entry : String × String} :
    entry ∈ entriesBelow root entries ↔ ∃ names, IsSeen t top names ∧
      (joined root (written names), written names) = entry := by
  obtain ⟨seen, -, hseen, hbelow⟩ := hlists.entriesBelow_eq h hroot
  rw [hbelow, List.mem_map]
  exact exists_congr fun names => and_congr_left fun _ => hseen names

theorem Lists.nodup_entriesBelow (hlists : Lists t root top entries) (h : t.IsPlain top)
    (hroot : t.locate root = .ok top) : ((entriesBelow root entries).map (·.2)).Nodup := by
  obtain ⟨seen, hnodup, hseen, hbelow⟩ := hlists.entriesBelow_eq h hroot
  rw [hbelow, List.map_map]
  refine hnodup.map_on fun names hnames names' hnames' hsame => ?_
  rw [← ((hseen names).1 hnames).parts_written h, ← ((hseen names').1 hnames').parts_written h]
  exact congrArg parts hsame

/-! ## Scanning a plain directory -/

/-- A file of text that a scan takes for a note. -/
structure HoldsNote (t : Tree) (top names : Place) (body : String) (modified : Instant) : Prop
    extends IsSeen t top names where
  file : t.node? (top ++ names) = some (.file (Text.toBytes body) modified)
  named : isNoteName (written names) = true

variable {body body' : String} {modified modified' : Instant}

/-- What a file holds can be told from the file. -/
theorem HoldsNote.unique (h : HoldsNote t top names body modified)
    (h' : HoldsNote t top names body' modified') : body = body' ∧ modified = modified' := by
  have hsame := h.file.symm.trans h'.file
  simp only [Option.some.injEq, Node.file.injEq] at hsame
  refine ⟨?_, hsame.2⟩
  rw [← Text.ofBytes_toBytes body, hsame.1, Text.ofBytes_toBytes]

/-- The note of a file of text is the one of the text, which has as many bytes as the file. -/
theorem load_of_holdsNote (h : t.IsPlain top) (hroot : t.locate root = .ok top)
    (hnote : HoldsNote t top names body modified) :
    load t (joined root (written names)) (written names) =
      .ok (.ofBody (written names) body modified modified) := by
  rw [load, h.read_joined hroot hnote.file hnote.below]
  dsimp only
  rw [Text.ofBytes_toBytes, Text.length_toBytes]
  rfl

theorem Lists.mem_foldersIn_iff (hlists : Lists t root top entries) (h : t.IsPlain top)
    (hroot : t.locate root = .ok top) :
    path ∈ foldersIn t root entries ↔
      ∃ names, IsSeen t top names ∧ t.node? (top ++ names) = some .directory ∧
        path = written names := by
  rw [foldersIn, List.mem_map]
  constructor
  · rintro ⟨entry, hentry, rfl⟩
    obtain ⟨hbelow, hisdir⟩ := List.mem_filter.1 hentry
    obtain ⟨names, hseen, rfl⟩ := (hlists.mem_entriesBelow_iff h hroot).1 hbelow
    obtain ⟨node, hnode⟩ := Option.ne_none_iff_exists'.1 hseen.there
    rw [h.isDirectory_joined hroot hnode hseen.below] at hisdir
    exact ⟨names, hseen, eq_of_beq hisdir ▸ hnode, rfl⟩
  · rintro ⟨names, hseen, hdir, rfl⟩
    refine ⟨_, List.mem_filter.2 ⟨(hlists.mem_entriesBelow_iff h hroot).2 ⟨names, hseen, rfl⟩, ?_⟩,
      rfl⟩
    rw [h.isDirectory_joined hroot hdir hseen.below]
    rfl

theorem Lists.mem_notesIn_iff (hlists : Lists t root top entries) (h : t.IsPlain top)
    (hroot : t.locate root = .ok top) {entry : String × String} :
    entry ∈ notesIn t root entries ↔ ∃ names body modified, HoldsNote t top names body modified ∧
      (joined root (written names), written names) = entry := by
  rw [notesIn, List.mem_filter, List.mem_filter, hlists.mem_entriesBelow_iff h hroot]
  constructor
  · rintro ⟨⟨⟨names, hseen, rfl⟩, hnotdir⟩, hnamed⟩
    obtain ⟨node, hnode⟩ := Option.ne_none_iff_exists'.1 hseen.there
    rw [h.isDirectory_joined hroot hnode hseen.below] at hnotdir
    cases node with
    | directory => cases hnotdir
    | link target => exact absurd hnode (h.noLinks names target)
    | file bytes modified =>
      obtain ⟨body, rfl⟩ := h.text names bytes modified hnode
      exact ⟨names, body, modified, ⟨hseen, hnode, hnamed⟩, rfl⟩
  · rintro ⟨names, body, modified, hnote, rfl⟩
    refine ⟨⟨⟨names, hnote.toIsSeen, rfl⟩, ?_⟩, hnote.named⟩
    rw [h.isDirectory_joined hroot hnote.file hnote.below]
    rfl

/-- Where nothing fails, everything succeeds, one by one. -/
theorem mapM_eq_ok {α β ε : Type} {f : α → Except ε β} {g : α → β} {l : List α}
    (h : ∀ a ∈ l, f a = .ok (g a)) : l.mapM f = .ok (l.map g) := by
  induction l with
  | nil => rfl
  | cons a l ih =>
    obtain ⟨ha, hl⟩ := List.forall_mem_cons.1 h
    rw [List.mapM_cons, ha, ih hl]
    rfl

/-- These are the notes of the files of text that a scan takes for notes. -/
structure AreNotesOf (t : Tree) (top : Place) (notes : List Note) : Prop where
  distinct : (notes.map (·.path)).Nodup
  mem_iff : ∀ note, note ∈ notes ↔ ∃ names body modified, HoldsNote t top names body modified ∧
    note = .ofBody (written names) body modified modified

/-- The vault of a plain directory can be opened, in whichever order its entries are listed: the
scan loads the note of each file that holds one, and of nothing else. -/
theorem Lists.exists_openFrom (hlists : Lists t root top entries) (h : t.IsPlain top)
    (hroot : t.locate root = .ok top) :
    ∃ notes, AreNotesOf t top notes ∧ openFrom t root entries =
      .ok ⟨root, (Catalogue.ofNotes notes).withFolders (foldersIn t root entries), []⟩ := by
  have hload : ∀ entry ∈ notesIn t root entries, ∃ note,
      load t entry.1 entry.2 = .ok note ∧ note.path = entry.2 := by
    intro entry hentry
    obtain ⟨names, body, modified, hnote, rfl⟩ := (hlists.mem_notesIn_iff h hroot).1 hentry
    exact ⟨_, load_of_holdsNote h hroot hnote, rfl⟩
  have hinhabited : Nonempty Note := ⟨.ofBody "" "" {} {}⟩
  choose! noteAt hnoteAt hpathAt using hload
  have hscan : scanFrom t root entries =
      .ok ((Catalogue.ofNotes ((notesIn t root entries).map noteAt)).withFolders
        (foldersIn t root entries)) := by
    rw [scanFrom_eq, mapM_eq_ok hnoteAt]
    rfl
  have hopen := openFrom_eq_ok_iff.2 ⟨h.isDirectory_root hroot, _, hscan, rfl⟩
  refine ⟨(notesIn t root entries).map noteAt, ⟨?_, fun note => ?_⟩, hopen⟩
  · have hpaths : ((notesIn t root entries).map noteAt).map (·.path) =
        (notesIn t root entries).map (·.2) := by
      rw [List.map_map]
      exact List.map_congr_left hpathAt
    have hsublist : (notesIn t root entries).Sublist (entriesBelow root entries) :=
      List.filter_sublist.trans List.filter_sublist
    rw [hpaths]
    exact (hlists.nodup_entriesBelow h hroot).sublist (hsublist.map _)
  · rw [List.mem_map]
    constructor
    · rintro ⟨entry, hentry, rfl⟩
      obtain ⟨names, body, modified, hnote, rfl⟩ := (hlists.mem_notesIn_iff h hroot).1 hentry
      have hloaded := (hnoteAt _ hentry).symm.trans (load_of_holdsNote h hroot hnote)
      exact ⟨names, body, modified, hnote, Except.ok.inj hloaded⟩
    · rintro ⟨names, body, modified, hnote, rfl⟩
      have hentry := (hlists.mem_notesIn_iff h hroot).2 ⟨names, body, modified, hnote, rfl⟩
      have hloaded := (hnoteAt _ hentry).symm.trans (load_of_holdsNote h hroot hnote)
      exact ⟨_, hentry, Except.ok.inj hloaded⟩

/-- The catalogue has the paths of the files that hold notes. -/
theorem AreNotesOf.mem_paths_iff {notes : List Note} (h : AreNotesOf t top notes)
    (folders : List String) :
    path ∈ ((Catalogue.ofNotes notes).withFolders folders).paths ↔
      ∃ names body modified, HoldsNote t top names body modified ∧ path = written names := by
  change path ∈ (Catalogue.ofNotes notes).paths ↔ _
  rw [Catalogue.mem_paths_ofNotes_iff]
  constructor
  · rintro ⟨note, hnote, rfl⟩
    obtain ⟨names, body, modified, hholds, rfl⟩ := (h.mem_iff note).1 hnote
    exact ⟨names, body, modified, hholds, rfl⟩
  · rintro ⟨names, body, modified, hholds, rfl⟩
    exact ⟨_, (h.mem_iff _).2 ⟨names, body, modified, hholds, rfl⟩, rfl⟩

/-- A scan of a plain directory that is in sight finds the files that hold notes. -/
theorem exists_scan (h : t.IsPlain top) (hroot : t.locate root = .ok top)
    (hsight : isOutOfSight root = false) (hhere : startsHere root = false) :
    ∃ c, scan t root = .ok c ∧ ∀ path, path ∈ c.paths ↔
      ∃ names body modified, HoldsNote t top names body modified ∧ path = written names := by
  obtain ⟨notes, hnotes, hopen⟩ := (lists_listed h hroot hsight hhere).exists_openFrom h hroot
  obtain ⟨c, hscan, heq⟩ := (openFrom_eq_ok_iff.1 hopen).2
  cases heq
  exact ⟨_, hscan, fun path => hnotes.mem_paths_iff _⟩

/-! ## Scanning a directory of texts -/

section
variable {dir : String} {texts : List (Place × Option (String × Instant))}

theorem isSeen_of_mem (h : Tree.AreProper texts) {text? : Option (String × Instant)}
    (hmem : (names, text?) ∈ texts) (hshown : ∀ name ∈ names, isHidden name = false) :
    IsSeen (Tree.ofTexts dir texts) [dir] names where
  there := by
    rw [h.node?_eq_some_iff.2 (.inr ⟨text?, hmem, rfl⟩)]
    simp
  below := (h.names _ hmem).1
  shown := hshown

theorem isSeen_ofTexts_iff (h : Tree.AreProper texts) :
    IsSeen (Tree.ofTexts dir texts) [dir] names ↔
      names ∈ (texts.map (·.1)).filter fun names => names.all fun name => !isHidden name := by
  simp only [List.mem_filter, List.all_eq_true, Bool.not_eq_true']
  constructor
  · rintro ⟨hthere, hbelow, hshown⟩
    obtain ⟨node, hnode⟩ := Option.ne_none_iff_exists'.1 hthere
    obtain ⟨hnil, -⟩ | ⟨text?, hmem, -⟩ := h.node?_eq_some_iff.1 hnode
    · exact absurd hnil hbelow
    · exact ⟨List.mem_map_of_mem hmem, hshown⟩
  · rintro ⟨hmem, hshown⟩
    obtain ⟨entry, hentry, rfl⟩ := List.mem_map.1 hmem
    exact isSeen_of_mem h hentry hshown

/-- The entries may be listed in any order. -/
theorem lists_ofTexts (h : Tree.AreProper texts) (seen : List Place)
    (hseen : seen.Perm ((texts.map (·.1)).filter fun names => names.all fun name =>
      !isHidden name)) :
    Lists (Tree.ofTexts dir texts) dir [dir] (seen.map fun names => joined dir (written names)) :=
  ⟨seen, hseen.nodup_iff.2 (h.distinct.filter _),
    fun _ => hseen.mem_iff.trans (isSeen_ofTexts_iff h).symm, rfl⟩

theorem holdsNote_ofTexts_iff (h : Tree.AreProper texts) :
    HoldsNote (Tree.ofTexts dir texts) [dir] names body modified ↔
      (names, some (body, modified)) ∈ texts ∧ (∀ name ∈ names, isHidden name = false) ∧
        isNoteName (written names) = true := by
  constructor
  · rintro ⟨hseen, hfile, hnamed⟩
    refine ⟨?_, hseen.shown, hnamed⟩
    obtain ⟨-, hnode⟩ | ⟨text?, hmem, hnode⟩ := h.node?_eq_some_iff.1 hfile
    · cases hnode
    · cases text? with
      | none => cases hnode
      | some text =>
        obtain ⟨hbytes, rfl⟩ := Node.file.inj hnode
        rw [← Text.ofBytes_toBytes body, hbytes, Text.ofBytes_toBytes]
        exact hmem
  · rintro ⟨hmem, hshown, hnamed⟩
    exact ⟨isSeen_of_mem h hmem hshown, h.node?_eq_some_iff.2 (.inr ⟨_, hmem, rfl⟩), hnamed⟩

theorem isSeen_directory_ofTexts_iff (h : Tree.AreProper texts) :
    IsSeen (Tree.ofTexts dir texts) [dir] names ∧
        (Tree.ofTexts dir texts).node? ([dir] ++ names) = some .directory ↔
      (names, none) ∈ texts ∧ ∀ name ∈ names, isHidden name = false := by
  constructor
  · rintro ⟨hseen, hdirectory⟩
    obtain ⟨hnil, -⟩ | ⟨text?, hmem, hnode⟩ := h.node?_eq_some_iff.1 hdirectory
    · exact absurd hnil hseen.below
    · cases text? with
      | none => exact ⟨hmem, hseen.shown⟩
      | some text => cases hnode
  · rintro ⟨hmem, hshown⟩
    exact ⟨isSeen_of_mem h hmem hshown, h.node?_eq_some_iff.2 (.inr ⟨none, hmem, rfl⟩)⟩

/-- The texts that a scan takes for notes. -/
def isNote (entry : Place × Option (String × Instant)) : Bool :=
  entry.2.isSome && entry.1.all (!isHidden ·) && isNoteName (written entry.1)

/-- The note of a text. -/
def noteOf (entry : Place × Option (String × Instant)) : Note :=
  let (body, modified) := entry.2.getD ("", {})
  .ofBody (written entry.1) body modified modified

/-- The directories that a scan takes for folders. -/
def isFolder (entry : Place × Option (String × Instant)) : Bool :=
  entry.2.isNone && entry.1.all (!isHidden ·)

theorem mem_notesOf_iff (h : Tree.AreProper texts) {note : Note} :
    note ∈ (texts.filter isNote).map noteOf ↔ ∃ names body modified,
      HoldsNote (Tree.ofTexts dir texts) [dir] names body modified ∧
        note = .ofBody (written names) body modified modified := by
  simp only [holdsNote_ofTexts_iff h, List.mem_map, List.mem_filter, isNote, Bool.and_eq_true,
    List.all_eq_true, Bool.not_eq_true']
  constructor
  · rintro ⟨⟨names, text?⟩, ⟨hmem, ⟨hsome, hshown⟩, hnamed⟩, rfl⟩
    obtain ⟨text, rfl⟩ := Option.isSome_iff_exists.1 hsome
    exact ⟨names, text.1, text.2, ⟨hmem, hshown, hnamed⟩, rfl⟩
  · rintro ⟨names, body, modified, ⟨hmem, hshown, hnamed⟩, rfl⟩
    exact ⟨(names, some (body, modified)), ⟨hmem, ⟨rfl, hshown⟩, hnamed⟩, rfl⟩

theorem nodup_paths_notesOf (h : Tree.AreProper texts) :
    (((texts.filter isNote).map noteOf).map (·.path)).Nodup := by
  have hplaces : ((texts.map (·.1)).map written).Nodup := by
    refine h.distinct.map_on fun names hnames names' hnames' hsame => ?_
    obtain ⟨entry, hentry, rfl⟩ := List.mem_map.1 hnames
    obtain ⟨entry', hentry', rfl⟩ := List.mem_map.1 hnames'
    exact written_inj (h.names entry hentry).2 (h.names entry' hentry').2 hsame
  rw [List.map_map] at hplaces ⊢
  exact hplaces.sublist (List.filter_sublist.map _)

/-- The vault of a directory of texts has the notes and folders among these, in whichever order they
are listed. -/
theorem openFrom_ofTexts (h : Tree.AreProper texts) (hdir : IsName dir)
    (hlists : Lists (Tree.ofTexts dir texts) dir [dir] entries) :
    openFrom (Tree.ofTexts dir texts) dir entries =
      .ok ⟨dir, (Catalogue.ofNotes ((texts.filter isNote).map noteOf)).withFolders
        ((texts.filter isFolder).map (written ·.1)), []⟩ := by
  have hplain : (Tree.ofTexts dir texts).IsPlain [dir] := h.isPlain
  have hroot := h.locate hdir
  obtain ⟨notes, hnotes, hopen⟩ := hlists.exists_openFrom hplain hroot
  have hperm : notes.Perm ((texts.filter isNote).map noteOf) :=
    (List.perm_ext_iff_of_nodup (.of_map _ hnotes.distinct) (.of_map _ (nodup_paths_notesOf h))).2
      fun note => (hnotes.mem_iff note).trans (mem_notesOf_iff h).symm
  have hfolders : ∀ folder,
      folder ∈ foldersIn (Tree.ofTexts dir texts) dir entries ↔
        folder ∈ (texts.filter isFolder).map (written ·.1) := by
    intro folder
    simp only [hlists.mem_foldersIn_iff hplain hroot, ← and_assoc, isSeen_directory_ofTexts_iff h,
      List.mem_map, List.mem_filter, isFolder, Bool.and_eq_true, List.all_eq_true,
      Bool.not_eq_true']
    constructor
    · rintro ⟨names, ⟨hmem, hshown⟩, rfl⟩
      exact ⟨(names, none), ⟨⟨hmem, rfl⟩, hshown⟩, rfl⟩
    · rintro ⟨⟨names, text?⟩, ⟨⟨hmem, hnone⟩, hshown⟩, rfl⟩
      exact ⟨names, ⟨Option.isNone_iff_eq_none.1 hnone ▸ hmem, hshown⟩, rfl⟩
  rw [hopen, Catalogue.ofNotes_eq_of_perm hnotes.distinct hperm,
    Catalogue.withFolders_congr (Order.increasing_ofList _) hfolders]

end

end NoteSearch.Vault.Folder

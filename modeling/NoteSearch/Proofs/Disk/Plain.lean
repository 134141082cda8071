import Mathlib.Data.List.Nodup
import Mathlib.Data.List.Perm.Subperm
import NoteSearch.Proofs.Disk.Paths
import NoteSearch.Text.Utf8

/-!
# Plain directories

A plain directory holds nothing but files of text and further such directories, all of them with
proper names. Everything below it is found where its path says, however the path of the directory
itself leads there; and what is listed in each of its directories is what lies there, once.
-/
namespace NoteSearch.Disk

/-- At this place there is a directory of files of text, with directories of such files in it. -/
structure Tree.IsPlain (t : Tree) (top : Place) : Prop where
  directory : t.node? top = some .directory
  /-- At each place lies one thing, -/
  distinct : (t.nodes.map (·.1)).Nodup
  /-- which has a name -/
  names : ∀ names, t.node? (top ++ names) ≠ none → ∀ name ∈ names, IsName name
  /-- and lies in a directory. -/
  inside : ∀ names name, t.node? (top ++ (names ++ [name])) ≠ none →
    t.node? (top ++ names) = some .directory
  noLinks : ∀ names target, t.node? (top ++ names) ≠ some (.link target)
  text : ∀ names bytes modified, t.node? (top ++ names) = some (.file bytes modified) →
    ∃ body, bytes = Text.toBytes body

namespace Tree

variable {t : Tree} {root : String} {top place : Place} {names names' : Place} {name : String}
  {node : Node}

theorem node?_of_ne_nil (h : place ≠ []) : t.node? place = t.nodes.lookup place := by
  rw [node?, if_neg (by simpa using h)]

/-! ## Where everything lies -/

namespace IsPlain

/-- Everything on the way to what lies below the directory is a directory. -/
theorem directory_of_prefix (h : t.IsPlain top) (names names' : Place)
    (hthere : t.node? (top ++ (names ++ names')) ≠ none) (hne : names' ≠ []) :
    t.node? (top ++ names) = some .directory := by
  induction names' using List.reverseRecOn with
  | nil => exact absurd rfl hne
  | append_singleton names' name ih =>
    have hparent : t.node? (top ++ (names ++ names')) = some .directory :=
      h.inside _ name (by rwa [List.append_assoc])
    rcases List.eq_nil_or_concat names' with rfl | ⟨front, last, rfl⟩
    · rwa [List.append_nil] at hparent
    · exact ih (by rw [hparent]; simp) (by simp)

/-- A path that is written from inside the directory is followed name by name. -/
theorem follow_names (h : t.IsPlain top) (links : Nat) (names names' : Place)
    (hthere : t.node? (top ++ (names ++ names')) ≠ none) :
    t.follow true links (top ++ names) names' = .ok (top ++ (names ++ names')) := by
  induction names' generalizing names with
  | nil => rw [follow, List.append_nil]
  | cons name names' ih =>
    have hdir := h.directory_of_prefix names (name :: names') hthere (by simp)
    have hname : IsName name := h.names _ hthere name (by simp)
    rw [List.append_cons] at hthere
    have hnext := ih (names ++ [name]) hthere
    rw [← List.append_assoc] at hnext
    rw [follow_cons_of_isName links hdir hname, hnext, List.append_cons names name names']
    rw [List.append_assoc]
    exact h.noLinks _

/-- What lies below the directory is where its path says, in whichever way the path of the directory
leads there. -/
theorem locate_joined (h : t.IsPlain top) (hroot : t.locate root = .ok top)
    (hthere : t.node? (top ++ names) ≠ none) (hne : names ≠ []) :
    t.locate (joined root (written names)) = .ok (top ++ names) := by
  have hroot' : root ≠ "" := ne_empty_of_locate hroot
  have hnotEmpty : root.isEmpty = false := by
    rw [← Bool.not_eq_true, String.isEmpty_iff]
    exact hroot'
  have hparts : parts (written names) = names := parts_written (h.names names hthere) hne
  have hfollow : t.follow true linkLimit [] (parts root) = .ok top := by
    rwa [locate, hnotEmpty] at hroot
  have hgoes : ∀ front, t.follow true linkLimit [] front = .ok top →
      t.follow true linkLimit [] (front ++ names) = .ok (top ++ names) := by
    intro front hfront
    obtain ⟨fault, hfails, _⟩ | ⟨place, links, hplace, hgoes⟩ := t.follow_append linkLimit [] front
    · rw [hfails] at hfront
      cases hfront
    · obtain rfl := Except.ok.inj (hplace.symm.trans hfront)
      have hnames := h.follow_names links [] names hthere
      rw [hgoes]
      rwa [List.append_nil] at hnames
  rw [locate, isEmpty_joined hroot']
  by_cases hslash : root.toList.getLast? = some '/'
  · obtain ⟨front, -, hfront, hrest⟩ := exists_parts_of_slash hslash
    rw [hfront] at hfollow
    rw [hrest, hparts]
    exact hgoes front (follow_of_slash hfollow)
  · rw [parts_joined hroot' hslash, hparts]
    exact hgoes _ hfollow

theorem isDirectory_root (h : t.IsPlain top) (hroot : t.locate root = .ok top) :
    t.isDirectory root = true := by
  rw [isDirectory, find, hroot]
  simp [Except.bind, h.directory]

theorem find_joined (h : t.IsPlain top) (hroot : t.locate root = .ok top)
    (hnode : t.node? (top ++ names) = some node) (hne : names ≠ []) :
    t.find (joined root (written names)) = .ok node := by
  rw [find, h.locate_joined hroot (by rw [hnode]; simp) hne]
  simp [Except.bind, hnode]

/-- Whether a path leads to a directory can be seen at its place, -/
theorem isDirectory_joined (h : t.IsPlain top) (hroot : t.locate root = .ok top)
    (hnode : t.node? (top ++ names) = some node) (hne : names ≠ []) :
    t.isDirectory (joined root (written names)) = (node == .directory) := by
  rw [isDirectory, h.find_joined hroot hnode hne]
  cases node <;> rfl

/-- and so can what is read there. -/
theorem read_joined (h : t.IsPlain top) (hroot : t.locate root = .ok top) {bytes : List UInt8}
    {modified : Time.Instant} (hnode : t.node? (top ++ names) = some (.file bytes modified))
    (hne : names ≠ []) : t.read (joined root (written names)) = .ok (bytes, modified) := by
  rw [read, h.find_joined hroot hnode hne]
  rfl

end IsPlain

/-! ## What is listed -/

theorem names_perm (t : Tree) (place : Place) :
    (t.names place).Perm ((t.nodes.map (·.1)).filterMap fun p =>
      if p.dropLast == place then p.getLast? else none) := by
  rw [List.filterMap_map]
  exact List.mergeSort_perm _ _

/-- The place of what is listed under a name. -/
theorem eq_concat_iff {p : Place} :
    (if p.dropLast == place then p.getLast? else none) = some name ↔ p = place ++ [name] := by
  rcases List.eq_nil_or_concat p with rfl | ⟨front, last, rfl⟩
  · simp
  · rw [List.concat_eq_append]
    by_cases hfront : front = place
    · simp [hfront]
    · simp [hfront]

/-- Something lies at a place exactly if it is listed in the tree, unless the place is the top. -/
theorem node?_ne_none_iff (h : place ≠ []) : t.node? place ≠ none ↔ place ∈ t.nodes.map (·.1) := by
  rw [node?_of_ne_nil h, ne_eq, List.lookup_eq_none_iff]
  simp

theorem mem_names_iff : name ∈ t.names place ↔ t.node? (place ++ [name]) ≠ none := by
  rw [(t.names_perm place).mem_iff, List.mem_filterMap, node?_ne_none_iff (by simp)]
  simp only [eq_concat_iff, exists_eq_right]

/-- What lies in one directory has different names. -/
theorem nodup_names (hdistinct : (t.nodes.map (·.1)).Nodup) (place : Place) :
    (t.names place).Nodup := by
  refine (t.names_perm place).nodup_iff.2 (hdistinct.filterMap ?_)
  intro p q name hp hq
  exact (eq_concat_iff.1 hp).trans (eq_concat_iff.1 hq).symm

/-- Nothing lies deeper than there are things in the tree. -/
theorem IsPlain.length_le (h : t.IsPlain top) (hthere : t.node? (top ++ names) ≠ none) :
    names.length ≤ t.nodes.length := by
  -- on the way there are as many places, all of which are listed
  have hway : ((List.range names.length).map fun i => top ++ names.take (i + 1)).Nodup := by
    refine List.nodup_range.map_on fun i hi j hj heq => ?_
    have hlength := congrArg List.length (List.append_cancel_left heq)
    rw [List.mem_range] at hi hj
    simp only [List.length_take] at hlength
    omega
  have hlisted : ((List.range names.length).map fun i => top ++ names.take (i + 1)) ⊆
      t.nodes.map (·.1) := by
    intro place hplace
    obtain ⟨i, hi, rfl⟩ := List.mem_map.1 hplace
    rw [List.mem_range] at hi
    have hne : names.take (i + 1) ≠ [] := by
      rw [ne_eq, List.take_eq_nil_iff]
      rintro (hzero | rfl)
      · omega
      · simp at hi
    refine (node?_ne_none_iff (by simp [hne])).1 ?_
    by_cases hrest : names.drop (i + 1) = []
    · rwa [List.take_of_length_le (by simpa using hrest)]
    · rw [h.directory_of_prefix (names.take (i + 1)) (names.drop (i + 1))
        (by rwa [List.take_append_drop]) hrest]
      simp
  simpa using (List.subperm_of_subset hway hlisted).length_le

/-! ## Directories of texts -/

/-- A directory at the top is where its name says. -/
theorem locate_of_isName (hname : IsName name) (hdir : t.node? [name] = some .directory) :
    t.locate name = .ok [name] := by
  have hne : name.isEmpty = false := by
    rw [← Bool.not_eq_true, String.isEmpty_iff]
    exact hname.notEmpty
  have hfollow : t.follow true linkLimit [] [name] = t.follow true linkLimit [name] [] :=
    follow_cons_of_isName linkLimit rfl hname (by simp [hdir]) []
  rw [locate, hne, parts_of_noSlash hname.noSlash]
  rw [follow] at hfollow
  exact hfollow.trans rfl

/-- A text with the time when it was modified lies in a file; else there is a directory. -/
def textNode : Option (String × Time.Instant) → Node
  | some (body, modified) => .file (Text.toBytes body) modified
  | none => .directory

/-- A directory at the top with texts and directories at these places in it. -/
def ofTexts (top : String) (texts : List (Place × Option (String × Time.Instant))) : Tree :=
  ⟨([top], .directory) :: texts.map fun entry => (top :: entry.1, textNode entry.2)⟩

/-- The places are different and have proper names, and each of them is in the directory itself or
in one that is listed. -/
structure AreProper (texts : List (Place × Option (String × Time.Instant))) : Prop where
  distinct : (texts.map (·.1)).Nodup
  names : ∀ entry ∈ texts, entry.1 ≠ [] ∧ ∀ name ∈ entry.1, IsName name
  inside : ∀ entry ∈ texts, entry.1.dropLast = [] ∨ (entry.1.dropLast, none) ∈ texts

section
variable {dir : String} {texts : List (Place × Option (String × Time.Instant))}

theorem AreProper.nodup_keys (h : AreProper texts) (dir : String) :
    ((ofTexts dir texts).nodes.map (·.1)).Nodup := by
  have hplaces : (ofTexts dir texts).nodes.map (·.1) =
      ([] :: texts.map (·.1)).map (dir :: ·) := by
    simp [ofTexts]
  rw [hplaces]
  refine (List.nodup_cons.2 ⟨fun hmem => ?_, h.distinct⟩).map fun _ _ => List.tail_eq_of_cons_eq
  obtain ⟨entry, hentry, hnil⟩ := List.mem_map.1 hmem
  exact (h.names entry hentry).1 hnil

/-- All that lies in the directory. -/
theorem AreProper.node?_eq_some_iff (h : AreProper texts) :
    (ofTexts dir texts).node? ([dir] ++ names) = some node ↔
      names = [] ∧ node = .directory ∨ ∃ text?, (names, text?) ∈ texts ∧ node = textNode text? := by
  rw [node?_of_ne_nil (by simp), Keyed.lookup_eq_some_iff (h.nodup_keys dir), ofTexts,
    List.mem_cons, List.mem_map]
  refine or_congr (by simp) ⟨?_, ?_⟩
  · rintro ⟨⟨names', text?⟩, hmem, heq⟩
    cases heq
    exact ⟨text?, hmem, rfl⟩
  · rintro ⟨text?, hmem, rfl⟩
    exact ⟨_, hmem, rfl⟩

theorem AreProper.isPlain (h : AreProper texts) : (ofTexts dir texts).IsPlain [dir] where
  directory := by
    rw [← List.append_nil [dir]]
    exact h.node?_eq_some_iff.2 (.inl ⟨rfl, rfl⟩)
  distinct := h.nodup_keys dir
  names names hthere := by
    obtain ⟨node, hnode⟩ := Option.ne_none_iff_exists'.1 hthere
    obtain ⟨rfl, -⟩ | ⟨text?, hmem, -⟩ := h.node?_eq_some_iff.1 hnode
    · simp
    · exact (h.names _ hmem).2
  inside names name hthere := by
    obtain ⟨node, hnode⟩ := Option.ne_none_iff_exists'.1 hthere
    obtain ⟨hnil, -⟩ | ⟨text?, hmem, -⟩ := h.node?_eq_some_iff.1 hnode
    · simp at hnil
    · have hparent := h.inside _ hmem
      rw [List.dropLast_concat] at hparent
      exact h.node?_eq_some_iff.2 (hparent.imp (⟨·, rfl⟩) (⟨none, ·, rfl⟩))
  noLinks names target hlink := by
    obtain ⟨-, hnode⟩ | ⟨text?, -, hnode⟩ := h.node?_eq_some_iff.1 hlink
    · cases hnode
    · cases text? <;> cases hnode
  text names bytes modified hfile := by
    obtain ⟨-, hnode⟩ | ⟨text?, -, hnode⟩ := h.node?_eq_some_iff.1 hfile
    · cases hnode
    · cases text? with
      | none => cases hnode
      | some text =>
        cases hnode
        exact ⟨text.1, rfl⟩

theorem AreProper.locate (h : AreProper texts) (hdir : IsName dir) :
    (ofTexts dir texts).locate dir = .ok [dir] :=
  locate_of_isName hdir (h.isPlain).directory

end

end Tree
end NoteSearch.Disk

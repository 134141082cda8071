import NoteSearch.Proofs.Vault.Ancestors
import NoteSearch.Proofs.Vault.Resolved

/-!
# Which note a target prefers

A target prefers the note whose path it is, then the one whose path it is without the ending of
notes, and then, if it names no folder, a note whose file has the name: the one with the fewest
slashes in its path, and of those the first. There is never more than one such note, so the order
in which notes come makes no difference.
-/
namespace NoteSearch.Vault
open Text

variable {paths : List String} {path other target : String} {plain name : List Char}
  {answer answer' : Option String}

/-! ## Names of files -/

/-- The file of the path has this name. -/
def Path.IsNamed (name path : List Char) : Prop :=
  path = name ∨ ∃ folder, path = folder ++ '/' :: name

theorem Path.last_of_notMem {path : List Char} (h : '/' ∉ path) : last path = path := by
  have hall : path.reverse.takeWhile notSlash = path.reverse := by
    rw [List.takeWhile_eq_self_iff]
    intro c hc
    have hne : c ≠ '/' := fun hslash => h (hslash ▸ List.mem_reverse.1 hc)
    simpa [notSlash] using hne
  rw [last, hall, List.reverse_reverse]

theorem Path.last_append_cons (folder : List Char) (h : '/' ∉ name) :
    last (folder ++ '/' :: name) = name := by
  have hall : ∀ c ∈ name.reverse, notSlash c = true := by
    intro c hc
    have hne : c ≠ '/' := fun hslash => h (hslash ▸ List.mem_reverse.1 hc)
    simpa [notSlash] using hne
  rw [last, List.reverse_append, List.reverse_cons, List.append_assoc,
    List.takeWhile_append_of_pos hall]
  simp [notSlash]

theorem Path.last_eq_iff {path : List Char} (h : '/' ∉ name) :
    last path = name ↔ IsNamed name path := by
  constructor
  · rintro rfl
    by_cases hslash : '/' ∈ path
    · exact .inr ⟨parent path, (parent_append_last hslash).symm⟩
    · exact .inl (last_of_notMem hslash).symm
  · rintro (rfl | ⟨folder, rfl⟩)
    · exact last_of_notMem h
    · exact last_append_cons folder h

/-- The name of a file that a target without folder asks for. The ending of notes need not be
written. -/
def wantedName (plain : List Char) : List Char :=
  if ".md".toList <:+ plain then plain else plain ++ ".md".toList

theorem fileWanted_eq_wantedName (plain : List Char) : fileWanted plain = wantedName plain := by
  have hending : (before? Path.ending plain).isSome = true ↔ ".md".toList <:+ plain := by
    rw [Option.isSome_iff_exists]
    exact exists_congr fun front => before?_eq_some_iff.trans eq_comm
  simp only [fileWanted, wantedName, hending]
  rfl

theorem slash_notMem_wantedName (h : '/' ∉ plain) : '/' ∉ wantedName plain := by
  unfold wantedName
  split
  · exact h
  · simpa using h

/-! ## The preferred note -/

/-- Of the paths of files with this name the path has the fewest slashes, and of those it is the
first. -/
structure IsLeastNamed (paths : List String) (name : List Char) (path : String) : Prop where
  mem : path ∈ paths
  named : Path.IsNamed name path.toList
  least : ∀ other ∈ paths, Path.IsNamed name other.toList → (Path.byDepth path other).isLE = true

theorem isLeastNamed_iff (h : '/' ∉ name) : IsLeastNamed paths name path ↔
    IsShallowest (paths.filter fun path => Path.last path.toList == name) path := by
  have hmem : ∀ other, (other ∈ paths.filter fun path => Path.last path.toList == name) ↔
      other ∈ paths ∧ Path.IsNamed name other.toList := by
    simp [Path.last_eq_iff h]
  constructor
  · rintro ⟨hpath, hnamed, hleast⟩
    exact ⟨(hmem path).2 ⟨hpath, hnamed⟩, fun other hother =>
      hleast other ((hmem other).1 hother).1 ((hmem other).1 hother).2⟩
  · rintro ⟨hpath, hleast⟩
    exact ⟨((hmem path).1 hpath).1, ((hmem path).1 hpath).2, fun other hother hnamed =>
      hleast other ((hmem other).2 ⟨hother, hnamed⟩)⟩

/-- What a target leads to among the paths, white space around it and slashes before it being
taken off. -/
inductive Prefers (paths : List String) (plain : List Char) : Option String → Prop
  | exact (h : String.ofList plain ∈ paths) : Prefers paths plain (some (String.ofList plain))
  | ending (hexact : String.ofList plain ∉ paths)
    (h : String.ofList (plain ++ ".md".toList) ∈ paths) :
    Prefers paths plain (some (String.ofList (plain ++ ".md".toList)))
  | named {path : String} (hexact : String.ofList plain ∉ paths)
    (hending : String.ofList (plain ++ ".md".toList) ∉ paths) (hfolder : '/' ∉ plain)
    (h : IsLeastNamed paths (wantedName plain) path) : Prefers paths plain (some path)
  | nowhere (hexact : String.ofList plain ∉ paths)
    (hending : String.ofList (plain ++ ".md".toList) ∉ paths)
    (h : '/' ∉ plain → ∀ path ∈ paths, ¬ Path.IsNamed (wantedName plain) path.toList) :
    Prefers paths plain none

theorem Prefers.unique (h : Prefers paths plain answer) (h' : Prefers paths plain answer') :
    answer = answer' := by
  cases h with
  | exact h => cases h' <;> first | rfl | contradiction
  | ending hexact h => cases h' <;> first | rfl | contradiction
  | named hexact hending hfolder h =>
    have hname := slash_notMem_wantedName hfolder
    cases h' with
    | exact | ending => contradiction
    | named _ _ _ h' => rw [((isLeastNamed_iff hname).1 h).eq ((isLeastNamed_iff hname).1 h')]
    | nowhere _ _ hnone => exact absurd h.named (hnone hfolder _ h.mem)
  | nowhere hexact hending hnone =>
    cases h' with
    | exact | ending => contradiction
    | named _ _ hfolder h' => exact absurd h'.named (hnone hfolder _ h'.mem)
    | nowhere => rfl

theorem prefers_resolve (hpaths : Order.Increasing compare paths) (target : String) :
    Prefers paths (plainTarget target) (resolve paths target) := by
  simp only [resolve, List.contains_iff_mem]
  split
  · next hexact => exact .exact hexact
  · next hexact =>
    split
    · next hending => exact .ending hexact hending
    · next hending =>
      split
      · next hfolder => exact .nowhere hexact hending fun hnot => absurd hfolder hnot
      · next hfolder =>
        have hname := slash_notMem_wantedName hfolder
        rw [fileWanted_eq_wantedName]
        cases hfound : shallowest (paths.filter fun path =>
            Path.last path.toList == wantedName (plainTarget target)) with
        | some path =>
          have hshallowest := (shallowest_eq_some_iff (hpaths.filter _)).1 hfound
          exact .named hexact hending hfolder ((isLeastNamed_iff hname).2 hshallowest)
        | none =>
          refine .nowhere hexact hending fun _ path hpath hnamed => ?_
          have hnone := List.filter_eq_nil_iff.1 (shallowest_eq_none_iff.1 hfound) path hpath
          exact hnone (beq_iff_eq.2 ((Path.last_eq_iff hname).2 hnamed))

namespace Catalogue

/-- The paths of a catalogue do not depend on the order in which notes are put in. -/
theorem paths_ofNotes_perm {notes notes' : List Note} (h : notes.Perm notes') :
    (ofNotes notes).paths = (ofNotes notes').paths := by
  refine (increasing_paths_ofNotes notes).eq_of_mem_iff (increasing_paths_ofNotes notes')
    fun path => ?_
  simp only [mem_paths_ofNotes_iff, h.mem_iff]

/-- What a target leads to in a catalogue is what it prefers among the paths of the notes, in
whichever order these are given. It is always one of the paths. -/
theorem resolve_eq_iff_prefers (notes : List Note) (folders : List String) (target : String) :
    let c := (ofNotes notes).withFolders folders
    (∀ path, path ∈ c.paths ↔ ∃ note ∈ notes, note.path = path) ∧
    (∀ answer, c.resolve target = answer ↔ Prefers c.paths (plainTarget target) answer) ∧
    (∀ path, c.resolve target = some path → path ∈ c.paths) ∧
    ∀ notes' folders', notes.Perm notes' →
      ((ofNotes notes').withFolders folders').resolve target = c.resolve target := by
  intro c
  have hprefers := prefers_resolve (increasing_paths_ofNotes notes) target
  refine ⟨fun path => mem_paths_ofNotes_iff, fun answer => ⟨?_, hprefers.unique⟩,
    fun path => mem_of_resolve, fun notes' folders' hperm => ?_⟩
  · rintro rfl
    exact hprefers
  · change Vault.resolve (ofNotes notes').paths target = Vault.resolve (ofNotes notes).paths target
    rw [paths_ofNotes_perm hperm]

/-- Of three files of one name two are as deep, and the first of these is preferred. -/
theorem resolve_eq_iff_prefers_of_three :
    let notes := ["a/b/x.md", "d/x.md", "c/x.md"].map (Note.ofBody · "" {} {})
    let c := (ofNotes notes).withFolders []
    Prefers c.paths (plainTarget " /x ") (some "c/x.md") ∧
      ((ofNotes notes.reverse).withFolders ["e"]).resolve " /x " = some "c/x.md" := by
  intro notes c
  obtain ⟨-, hiff, -, hperm⟩ := resolve_eq_iff_prefers notes [] " /x "
  have hfound : c.resolve " /x " = some "c/x.md" := by decide +kernel
  exact ⟨(hiff _).1 hfound, (hperm _ ["e"] notes.reverse_perm.symm).trans hfound⟩

end Catalogue
end NoteSearch.Vault

import NoteSearch.Proofs.Disk.Growth
import NoteSearch.Proofs.Settings.Saved
import NoteSearch.Proofs.Text.Utf8
import NoteSearch.Settings.File

/-!
# Settings survive being saved

Settings that are saved where a file can be written are loaded from there as they were. Settings
with a number that does not fit are not saved, and then every file is still what it was, so that
whatever could be loaded before is loaded as before.
-/
namespace NoteSearch.Settings
open Disk

variable {s : Settings} {t t' : Tree} {path name : String}

/-- A file can be written at a path: the directory around it is there or can be made, and there is
no directory at the path itself. -/
def IsWritable (t : Tree) (path : String) : Prop :=
  ∃ t' place, t.makeAll (directoryOf path) = (.ok (), t') ∧ t'.locate path = .ok place ∧
    t'.node? place ≠ some .directory

/-- At the top a file can be written under each name that neither a directory nor a link has. -/
theorem isWritable_of_isName (hname : IsName name) (hdir : t.node? [name] ≠ some .directory)
    (hlink : ∀ target, t.node? [name] ≠ some (.link target)) : IsWritable t name := by
  have hdirectory : directoryOf name = "" := by
    simp [directoryOf, parts_of_noSlash hname.noSlash, hname.notEmpty, hname.notHere]
  have hmake : t.makeAll "" = (.ok (), t) := rfl
  have hfollow : t.follow true linkLimit [] [name] = t.follow true linkLimit [name] [] :=
    Tree.follow_cons_of_isName linkLimit rfl hname hlink []
  have hempty : name.isEmpty = false := by
    rw [← Bool.not_eq_true, String.isEmpty_iff]
    exact hname.notEmpty
  refine ⟨t, [name], by rw [hdirectory, hmake], ?_, hdir⟩
  rw [Tree.locate, hempty, parts_of_noSlash hname.noSlash]
  exact hfollow.trans (by rw [Tree.follow])

theorem textOf?_toBytes (text : String) : textOf? (Text.toBytes text) = some text := by
  simp [textOf?, Text.ofBytes_toBytes]

/-- What is loaded is decided by what is read. -/
theorem load_of_read_eq (h : t'.read path = t.read path) : load t' path = load t path := by
  rw [load, load, h]

theorem exists_read_of_load (h : load t path = .ok s) : ∃ contents, t.read path = .ok contents := by
  rw [load] at h
  split at h
  · cases h
  · next bytes modified hread => exact ⟨(bytes, modified), hread⟩

/-- Settings that fit are loaded from where their text was written. -/
theorem load_of_write (h : s.Fits) {modified : Time.Instant}
    (hwrite : t.write path (Text.toBytes s.text) modified = .ok t') : load t' path = .ok s := by
  rw [load, Tree.read_of_write hwrite]
  simp [textOf?_toBytes, read?_text h]

theorem exists_write {place : Place} (hlocate : t.locate path = .ok place)
    (hdir : t.node? place ≠ some .directory) (bytes : List UInt8) (modified : Time.Instant) :
    ∃ t', t.write path bytes modified = .ok t' := by
  refine ⟨t.set place (.file bytes modified.carried), ?_⟩
  rw [Tree.write, hlocate, Except.bind]
  split
  · next heq => exact absurd heq hdir
  · rfl

/-- Settings that fit are saved wherever a file can be written, and loaded from there. -/
theorem store_of_fits (h : s.Fits) (hpath : IsWritable t path) :
    ∃ t', s.store t path = (.ok (), t') ∧ load t' path = .ok s := by
  obtain ⟨made, place, hmake, hlocate, hdir⟩ := hpath
  obtain ⟨t', hwrite⟩ := exists_write hlocate hdir (Text.toBytes s.text) {}
  refine ⟨t', ?_, load_of_write h hwrite⟩
  rw [store, hmake, text?_of_fits h]
  simp only [hwrite]

/-- Settings that do not fit are not saved anywhere. -/
theorem store_of_not_fits (h : ¬s.Fits) (t : Tree) (path : String) :
    ∃ fault, (s.store t path).1 = .error fault := by
  rw [store, text?_of_not_fits h]
  obtain ⟨result, made⟩ := t.makeAll (directoryOf path)
  cases result with
  | ok => exact ⟨.unsavable, rfl⟩
  | error cause => exact ⟨.noDirectory cause, rfl⟩

/-- Where settings could not be saved, for whatever reason, nothing has happened but that
directories were made. -/
theorem grows_of_store_error {fault : Fault} (h : (s.store t path).1 = .error fault) :
    t.Grows (s.store t path).2 := by
  have hmade := t.grows_makeAll (directoryOf path)
  rw [store] at h ⊢
  split at h
  · next cause made hmake => simpa only [hmake] using hmade
  · next made hmake =>
    rw [hmake] at hmade
    cases htext : s.text? with
    | none => exact hmade
    | some text =>
      cases hwrite : made.write path (Text.toBytes text) {} with
      | error cause => simpa only [hwrite] using hmade
      | ok left => simp [htext, hwrite] at h

/-- Settings whose numbers fit are loaded from where they are saved, if a file can be written there.
Settings with a number that does not fit are not saved; then all files that can be read are still
read as before, and loaded as before. -/
theorem loaded_as_stored_or_as_before (s : Settings) (t : Tree) (path : String) :
    (s.Fits → IsWritable t path → ∃ t', s.store t path = (.ok (), t') ∧ load t' path = .ok s) ∧
    (¬s.Fits → (∃ fault, (s.store t path).1 = .error fault) ∧
      ∀ file contents, t.read file = .ok contents →
        (s.store t path).2.read file = .ok contents ∧
          load (s.store t path).2 file = load t file) := by
  refine ⟨store_of_fits, fun h => ?_⟩
  obtain ⟨fault, hfault⟩ := store_of_not_fits h t path
  refine ⟨⟨fault, hfault⟩, fun file contents hread => ?_⟩
  have hsame : (s.store t path).2.read file = .ok contents :=
    (grows_of_store_error hfault).read hread
  exact ⟨hsame, load_of_read_eq (hsame.trans hread.symm)⟩

/-- Settings with a vault and an order are saved; then the same with a number that does not fit are
not, and the first ones are still there. -/
theorem loaded_as_stored_or_as_before_twice :
    let s : Settings := { vault := some "my \"old\" notes", sort := some ⟨.name, true⟩ }
    let wide : Settings := { s with batch := Decimal.signedLimit }
    s.Fits ∧ IsWritable {} "config.toml" ∧ ¬wide.Fits ∧
      ∃ t', s.store {} "config.toml" = (.ok (), t') ∧ load t' "config.toml" = .ok s ∧
        (∃ fault, (wide.store t' "config.toml").1 = .error fault) ∧
        load (wide.store t' "config.toml").2 "config.toml" = .ok s := by
  intro s wide
  have hfits : s.Fits := ⟨by decide, by decide, by decide, by decide⟩
  have hwide : ¬wide.Fits := fun h => absurd h.batch (by decide)
  have hpath : IsWritable {} "config.toml" :=
    isWritable_of_isName (by decide) (by decide) (by simp [Tree.node?])
  obtain ⟨t', hstore, hload⟩ := (loaded_as_stored_or_as_before s {} "config.toml").1 hfits hpath
  obtain ⟨hfault, hkept⟩ := (loaded_as_stored_or_as_before wide t' "config.toml").2 hwide
  obtain ⟨contents, hread⟩ := exists_read_of_load hload
  exact ⟨hfits, hpath, hwide, t', hstore, hload, hfault,
    (hkept "config.toml" contents hread).2.trans hload⟩

end NoteSearch.Settings

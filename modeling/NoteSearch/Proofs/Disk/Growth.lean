import Mathlib.Data.List.Infix
import NoteSearch.Proofs.Disk.Plain

/-!
# What a path leads to while a tree grows

A path leads where it led as long as directories and links stay what they are and nothing else
becomes a link. So a file that is written is what its path leads to, and directories that are made
where nothing was change nothing about what can be read.
-/
namespace NoteSearch.Disk.Tree

variable {t t' t'' : Tree} {place top : Place} {node : Node} {path : String} {toEnd : Bool}
  {links : Nat} {parts : List String}

theorem lookup_set (t : Tree) (place p : Place) (node : Node) :
    (t.set place node).nodes.lookup p = if p = place then some node else t.nodes.lookup p := by
  rw [set, Keyed.lookup_put]
  simp only [beq_iff_eq]

/-- At a place lies what was put there, and elsewhere what was there before. -/
theorem node?_set (hplace : place ≠ []) (t : Tree) (node : Node) (p : Place) :
    (t.set place node).node? p = if p = place then some node else t.node? p := by
  by_cases hp : p = []
  · subst hp
    rw [if_neg (Ne.symm hplace)]
    rfl
  · rw [node?_of_ne_nil hp, lookup_set, node?_of_ne_nil hp]

/-! ## Paths that keep leading where they led -/

/-- Directories and links stay what they are, and nothing else becomes a link. -/
structure Keeps (t t' : Tree) : Prop where
  directory : ∀ place, t.node? place = some .directory → t'.node? place = some .directory
  link : ∀ place target, t'.node? place = some (.link target) ↔ t.node? place = some (.link target)

theorem Keeps.follow (h : t.Keeps t') (hfollow : t.follow toEnd links place parts = .ok top) :
    t'.follow toEnd links place parts = .ok top := by
  -- on the way it is only asked which places are directories, and which are links
  fun_induction Tree.follow t toEnd links place parts with
  | case1 => rw [Tree.follow, ← hfollow]
  | case2 | case3 | case4 => cases hfollow
  | case5 links place part front hnode hpart ih =>
    simpa only [Tree.follow, h.directory _ hnode, if_pos hpart] using ih hfollow
  | case6 links place front hnode hpart ih =>
    simpa only [Tree.follow, h.directory _ hnode, if_neg hpart, if_true] using ih hfollow
  | case7 links place part front hnode hpart hup target hlink hlast =>
    simp only [Tree.follow, h.directory _ hnode, if_neg hpart, if_neg hup,
      (h.link _ _).2 hlink, if_pos hlast, ← hfollow]
  | case8 place part front hnode hpart hup target hlink hlast => cases hfollow
  | case9 place part front hnode hpart hup target hlink hlast links ih =>
    simpa only [Tree.follow, h.directory _ hnode, if_neg hpart, if_neg hup,
      (h.link _ _).2 hlink, if_neg hlast, dite_eq_ite] using ih hfollow
  | case10 links place part front hnode hpart hup hlink ih =>
    simp only [Tree.follow, h.directory _ hnode, if_neg hpart, if_neg hup]
    split
    · next target hlink' => exact absurd ((h.link _ _).1 hlink') (hlink target)
    · exact ih hfollow

theorem Keeps.locate (h : t.Keeps t') (hlocate : t.locate path = .ok top) :
    t'.locate path = .ok top := by
  rw [Tree.locate] at hlocate ⊢
  split at hlocate
  · cases hlocate
  · next hne =>
    rw [if_neg hne]
    exact h.follow hlocate

/-! ## Where paths lead -/

/-- A place to which one gets through directories, and where there is no link. -/
structure IsReached (t : Tree) (place : Place) : Prop where
  inside : ∀ p, p <+: place → p ≠ place → t.node? p = some .directory
  noLink : ∀ target, t.node? place ≠ some (.link target)

theorem isReached_top (t : Tree) : t.IsReached [] where
  inside p hp hne := absurd (List.prefix_nil.1 hp) hne
  noLink target hlink := by cases hlink

theorem IsReached.up (h : t.IsReached place) : t.IsReached place.dropLast := by
  by_cases hplace : place = []
  · simpa [hplace] using h
  · have hlt : place.dropLast.length < place.length := by
      rw [List.length_dropLast]
      exact Nat.sub_lt (List.length_pos_of_ne_nil hplace) Nat.one_pos
    have hne : ∀ p, p <+: place.dropLast → p ≠ place := fun p hp heq => by
      have hle := hp.length_le
      rw [heq] at hle
      omega
    have hdir : ∀ p, p <+: place.dropLast → t.node? p = some .directory := fun p hp =>
      h.inside p (hp.trans (List.dropLast_prefix place)) (hne p hp)
    exact ⟨fun p hp _ => hdir p hp, fun target hlink => by
      rw [hdir _ List.prefix_rfl] at hlink
      cases hlink⟩

theorem IsReached.down (h : t.IsReached place) (hdir : t.node? place = some .directory)
    {part : String} (hlink : ∀ target, t.node? (place ++ [part]) ≠ some (.link target)) :
    t.IsReached (place ++ [part]) where
  inside p hp hne := by
    have hp' : p <+: place := (List.prefix_concat_iff.1 hp).resolve_left hne
    by_cases heq : p = place
    · rwa [heq]
    · exact h.inside p hp' heq
  noLink := hlink

/-- A path that is followed to the end leads to no link. -/
theorem IsReached.follow (h : t.IsReached place)
    (hfollow : t.follow true links place parts = .ok top) : t.IsReached top := by
  -- a link that is met is followed, so that no place that is gone on from is one
  fun_induction Tree.follow t true links place parts with
  | case1 links place =>
    cases hfollow
    exact h
  | case2 | case3 | case4 | case8 => cases hfollow
  | case5 links place part front hnode hpart ih => exact ih h hfollow
  | case6 links place front hnode hpart ih => exact ih h.up hfollow
  | case7 links place part front hnode hpart hup target hlink hlast => simp at hlast
  | case9 place part front hnode hpart hup target hlink hlast links ih =>
    refine ih ?_ hfollow
    split
    · exact isReached_top t
    · exact h
  | case10 links place part front hnode hpart hup hlink ih => exact ih (h.down hnode hlink) hfollow

theorem isReached_of_locate (h : t.locate path = .ok top) : t.IsReached top := by
  rw [locate] at h
  split at h
  · cases h
  · exact (isReached_top t).follow h

/-! ## Writing and reading -/

/-- Nothing else leads elsewhere when something that is no link takes the place of a file or of
nothing. -/
theorem keeps_set (hplace : place ≠ []) (hdir : t.node? place ≠ some .directory)
    (hlink : ∀ target, t.node? place ≠ some (.link target))
    (hnode : ∀ target, node ≠ .link target) : t.Keeps (t.set place node) where
  directory p hp := by
    rw [node?_set hplace, if_neg, hp]
    rintro rfl
    exact hdir hp
  link p target := by
    rw [node?_set hplace]
    split
    · next heq => simp [heq, hlink, hnode]
    · exact Iff.rfl

/-- What is written is read from where it was written. -/
theorem read_of_write {bytes : List UInt8} {modified : Time.Instant}
    (h : t.write path bytes modified = .ok t') : t'.read path = .ok (bytes, modified.carried) := by
  rw [write] at h
  cases hlocate : t.locate path with
  | error fault => simp [hlocate, Except.bind] at h
  | ok place =>
    have hreached := isReached_of_locate hlocate
    simp only [hlocate, Except.bind] at h
    split at h
    · cases h
    · next hdir =>
      cases h
      have hplace : place ≠ [] := by
        rintro rfl
        exact hdir rfl
      have hkeeps : t.Keeps (t.set place (.file bytes modified.carried)) :=
        keeps_set hplace hdir hreached.noLink (by simp)
      rw [read, find, hkeeps.locate hlocate]
      simp [Except.bind, node?_set hplace]

/-! ## Making directories -/

/-- The second tree has nothing more than further directories. -/
def Grows (t t' : Tree) : Prop :=
  ∀ place, t'.node? place = t.node? place ∨
    t.node? place = none ∧ t'.node? place = some .directory

theorem Grows.refl (t : Tree) : t.Grows t := fun _ => .inl rfl

theorem Grows.trans (h : t.Grows t') (h' : t'.Grows t'') : t.Grows t'' := by
  intro place
  obtain heq | ⟨hnone, hdir⟩ := h place <;> obtain heq' | ⟨hnone', hdir'⟩ := h' place
  · exact .inl (heq'.trans heq)
  · exact .inr ⟨heq ▸ hnone', hdir'⟩
  · exact .inr ⟨hnone, heq'.trans hdir⟩
  · rw [hdir] at hnone'
    cases hnone'

theorem Grows.node? (h : t.Grows t') (hnode : t.node? place = some node) :
    t'.node? place = some node := by
  obtain heq | ⟨hnone, -⟩ := h place
  · rwa [heq]
  · rw [hnone] at hnode
    cases hnode

theorem Grows.keeps (h : t.Grows t') : t.Keeps t' where
  directory _ hdir := h.node? hdir
  link place target := by
    refine ⟨fun hlink => ?_, h.node?⟩
    obtain heq | ⟨-, hdir⟩ := h place
    · rwa [← heq]
    · rw [hdir] at hlink
      cases hlink

/-- Every file is still read as it was. -/
theorem Grows.read (h : t.Grows t') {contents : List UInt8 × Time.Instant}
    (hread : t.read path = .ok contents) : t'.read path = .ok contents := by
  rw [Tree.read, Tree.find] at hread ⊢
  cases hlocate : t.locate path with
  | error fault => simp [hlocate, Except.bind] at hread
  | ok place =>
    rw [hlocate] at hread
    rw [h.keeps.locate hlocate]
    cases hnode : t.node? place with
    | none => simp [hnode, Except.bind] at hread
    | some node => simpa [hnode, h.node? hnode, Except.bind] using hread

theorem grows_makeAt {isLast : Bool} (h : t.makeAt path isLast = .ok t') : t.Grows t' := by
  rw [makeAt] at h
  split at h
  · cases h
    exact Grows.refl t
  · cases hfollow : t.follow false linkLimit [] (parts path) with
    | error fault => simp [hfollow, Except.bind] at h
    | ok place =>
      simp only [hfollow, Except.bind] at h
      split at h
      · cases h
      · next hnone =>
        cases h
        intro p
        have hplace : place ≠ [] := by
          rintro rfl
          cases hnone
        rw [node?_set hplace]
        split
        · next heq => exact .inr ⟨heq ▸ hnone, rfl⟩
        · exact .inl rfl

/-- Directories are only made where nothing was, also if not all of them can be made. -/
theorem grows_makeDirectories (t : Tree) (before : String) (parts : List String) :
    t.Grows (t.makeDirectories before parts).2 := by
  induction parts generalizing t before with
  | nil => exact Grows.refl t
  | cons part parts ih =>
    rw [makeDirectories]
    split
    · exact Grows.refl t
    · next t' hmake => exact (grows_makeAt hmake).trans (ih t' _)

theorem grows_makeAll (t : Tree) (path : String) : t.Grows (t.makeAll path).2 :=
  grows_makeDirectories t _ _

end NoteSearch.Disk.Tree

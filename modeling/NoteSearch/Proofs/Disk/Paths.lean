import Mathlib.Data.List.Basic
import Mathlib.Data.List.Induction
import NoteSearch.Disk.Tree

/-!
# Paths and names

A place below a directory is reached by writing the names on the way one after the other. The parts
of what is written are the names again, so different places are written differently, and
a path that is followed from a directory leads on from wherever the directory is.
-/
namespace NoteSearch.Text

variable {mark : Char}

theorem pieces_cons (mark c : Char) (text : List Char) :
    pieces mark (c :: text) = if c = mark then [] :: pieces mark text else
      match pieces mark text with
      | [] => [[c]]
      | p :: ps => (c :: p) :: ps :=
  rfl

theorem pieces_ne_nil (mark : Char) (text : List Char) : pieces mark text ≠ [] := by
  cases text with
  | nil => simp [pieces]
  | cons c text =>
    rw [pieces_cons]
    split
    · simp
    · split <;> simp

theorem pieces_append_cons (mark : Char) (front rest : List Char) :
    pieces mark (front ++ mark :: rest) = pieces mark front ++ pieces mark rest := by
  induction front with
  | nil => simp [pieces]
  | cons c front ih =>
    rw [List.cons_append, pieces_cons, pieces_cons, ih]
    split
    · rfl
    · cases hfront : pieces mark front with
      | nil => exact absurd hfront (pieces_ne_nil mark front)
      | cons p ps => rfl

theorem pieces_of_notMem {text : List Char} (h : mark ∉ text) : pieces mark text = [text] := by
  induction text with
  | nil => rfl
  | cons c text ih =>
    rw [List.mem_cons, not_or] at h
    rw [pieces_cons, if_neg (Ne.symm h.1), ih h.2]

/-- The text begins as its first piece does, if that is not empty. -/
theorem head?_of_pieces {text piece : List Char} {c : Char} {rest : List (List Char)}
    (h : pieces mark text = (c :: piece) :: rest) : text.head? = some c := by
  cases text with
  | nil => cases h
  | cons first text =>
    rw [pieces_cons] at h
    split at h
    · cases h
    · split at h <;> cases h <;> rfl

/-- No piece has the mark in it. -/
theorem notMem_of_mem_pieces {text piece : List Char} (h : piece ∈ pieces mark text) :
    mark ∉ piece := by
  induction text generalizing piece with
  | nil =>
    rw [List.mem_singleton.1 h]
    exact List.not_mem_nil
  | cons c text ih =>
    rw [pieces_cons] at h
    split at h
    · obtain rfl | h := List.mem_cons.1 h
      · exact List.not_mem_nil
      · exact ih h
    · next hc =>
      split at h
      · rw [List.mem_singleton.1 h, List.mem_singleton]
        exact Ne.symm hc
      · next p ps heq =>
        rw [heq] at ih
        obtain rfl | h := List.mem_cons.1 h
        · exact List.not_mem_cons_of_ne_of_not_mem (Ne.symm hc) (ih List.mem_cons_self)
        · exact ih (List.mem_cons_of_mem p h)

end NoteSearch.Text

namespace NoteSearch.Disk
open Text

variable {path root name : String} {names names' : Place}

/-! ## Names -/

/-- What a file or a directory may be called. -/
structure IsName (name : String) : Prop where
  notEmpty : name ≠ ""
  notHere : name ≠ "."
  notUp : name ≠ ".."
  noSlash : '/' ∉ name.toList

instance (name : String) : Decidable (IsName name) :=
  decidable_of_iff (name ≠ "" ∧ name ≠ "." ∧ name ≠ ".." ∧ '/' ∉ name.toList)
    ⟨fun ⟨h₁, h₂, h₃, h₄⟩ => ⟨h₁, h₂, h₃, h₄⟩, fun ⟨h₁, h₂, h₃, h₄⟩ => ⟨h₁, h₂, h₃, h₄⟩⟩

/-- The path on which these names are passed one after the other. -/
def written (names : Place) : String := names.foldl joined ""

theorem written_concat (names : Place) (name : String) :
    written (names ++ [name]) = joined (written names) name :=
  List.foldl_append

theorem toList_ne_nil (h : name ≠ "") : name.toList ≠ [] := fun hnil =>
  h (String.toList_inj.1 (hnil.trans String.toList_empty.symm))

theorem joined_of_slash (h : path.toList.getLast? = some '/') (name : String) :
    joined path name = path ++ name := by
  have hne : path.isEmpty = false := by
    rw [← Bool.not_eq_true, String.isEmpty_iff]
    rintro rfl
    simp at h
  rw [joined, hne, if_pos h]
  rfl

theorem joined_of_noSlash (hne : path ≠ "") (h : path.toList.getLast? ≠ some '/') (name : String) :
    joined path name = path ++ "/" ++ name := by
  have hempty : path.isEmpty = false := by
    rw [← Bool.not_eq_true, String.isEmpty_iff]
    exact hne
  rw [joined, hempty, if_neg h]
  rfl

theorem isEmpty_joined (hne : path ≠ "") (name : String) : (joined path name).isEmpty = false := by
  obtain ⟨c, cs, hcs⟩ := List.exists_cons_of_ne_nil (toList_ne_nil hne)
  rw [← Bool.not_eq_true, String.isEmpty_iff, ← String.toList_inj]
  by_cases hslash : path.toList.getLast? = some '/'
  · simp [joined_of_slash hslash, hcs]
  · simp [joined_of_noSlash hne hslash, hcs]

theorem parts_append_slash (front rest : String) :
    parts (front ++ "/" ++ rest) = parts front ++ parts rest := by
  unfold parts
  rw [String.toList_append, String.toList_append, List.append_assoc]
  change ((pieces '/' (front.toList ++ '/' :: rest.toList)).map _) = _
  rw [pieces_append_cons, List.map_append]

/-- The parts of a path that is joined to one that does not end with a slash. -/
theorem parts_joined (hne : path ≠ "") (h : path.toList.getLast? ≠ some '/') (name : String) :
    parts (joined path name) = parts path ++ parts name := by
  rw [joined_of_noSlash hne h, parts_append_slash]

/-- A path that ends with a slash has an empty last part, in whose place the parts of what is joined
to it stand. -/
theorem exists_parts_of_slash (h : path.toList.getLast? = some '/') :
    ∃ front ≠ [], parts path = front ++ [""] ∧
      ∀ name, parts (joined path name) = front ++ parts name := by
  obtain ⟨front, hfront⟩ := List.getLast?_eq_some_iff.1 h
  refine ⟨(pieces '/' front).map String.ofList, ?_, ?_, fun name => ?_⟩
  · simpa using pieces_ne_nil '/' front
  · rw [parts, hfront, pieces_append_cons, List.map_append]
    rfl
  · rw [joined_of_slash h, parts, String.toList_append, hfront, List.append_assoc,
      List.singleton_append, pieces_append_cons, List.map_append]
    rfl

theorem parts_ne_nil (path : String) : parts path ≠ [] := by
  simpa [parts] using pieces_ne_nil '/' path.toList

theorem parts_of_noSlash (h : '/' ∉ name.toList) : parts name = [name] := by
  rw [parts, pieces_of_notMem h, List.map_singleton, String.ofList_toList]

/-! ## What is written -/

theorem getLast?_written (h : IsName name) (names : Place) :
    (written (names ++ [name])).toList.getLast? = name.toList.getLast? := by
  obtain ⟨c, cs, hcs⟩ := List.exists_cons_of_ne_nil (toList_ne_nil h.notEmpty)
  rw [written_concat, joined]
  split
  · rfl
  · split <;> simp [hcs, List.getLast?_cons]

theorem written_ne_empty (h : IsName name) (names : Place) : written (names ++ [name]) ≠ "" := by
  intro hempty
  have hlast := getLast?_written h names
  rw [hempty, String.toList_empty, List.getLast?_nil, eq_comm, List.getLast?_eq_none_iff] at hlast
  exact toList_ne_nil h.notEmpty hlast

theorem not_slash_of_written (h : IsName name) (names : Place) :
    (written (names ++ [name])).toList.getLast? ≠ some '/' := by
  rw [getLast?_written h]
  exact fun hlast => h.noSlash (List.mem_of_getLast? hlast)

/-- The parts of what is written are the names. -/
theorem parts_written (hnames : ∀ name ∈ names, IsName name) (hne : names ≠ []) :
    parts (written names) = names := by
  induction names using List.reverseRecOn with
  | nil => exact absurd rfl hne
  | append_singleton names name ih =>
    have hname := hnames name (by simp)
    rw [written_concat]
    rcases List.eq_nil_or_concat names with rfl | ⟨front, last, rfl⟩
    · exact parts_of_noSlash hname.noSlash
    · rw [List.concat_eq_append] at hnames ih ⊢
      have hlast : IsName last := hnames last (by simp)
      rw [parts_joined (written_ne_empty hlast front) (not_slash_of_written hlast front),
        ih (fun name h => hnames name (List.mem_append_left _ h)) (by simp),
        parts_of_noSlash hname.noSlash]

theorem isEmpty_written (hnames : ∀ name ∈ names, IsName name) :
    (written names).isEmpty = names.isEmpty := by
  rcases List.eq_nil_or_concat names with rfl | ⟨front, last, rfl⟩
  · rfl
  · rw [List.concat_eq_append] at hnames ⊢
    have hne := written_ne_empty (hnames last (by simp)) front
    rw [ne_eq, ← String.isEmpty_iff, Bool.not_eq_true] at hne
    simp [hne]

/-- Different places are written differently. -/
theorem written_inj (hnames : ∀ name ∈ names, IsName name) (hnames' : ∀ name ∈ names', IsName name)
    (h : written names = written names') : names = names' := by
  have hempty : names.isEmpty = names'.isEmpty := by
    rw [← isEmpty_written hnames, ← isEmpty_written hnames', h]
  cases names with
  | nil => exact (List.isEmpty_iff.1 hempty.symm).symm
  | cons name names =>
    have hne' : names' ≠ [] := fun hnil => by simp [hnil] at hempty
    rw [← parts_written hnames (by simp), h, parts_written hnames' hne']

/-- Names are written with slashes between them. -/
theorem intercalate_names (hnames : ∀ name ∈ names, IsName name) :
    "/".intercalate names = written names := by
  induction names using List.reverseRecOn with
  | nil => rfl
  | append_singleton names name ih =>
    have hnames' : ∀ name ∈ names, IsName name := fun name h => hnames name (by simp [h])
    rcases List.eq_nil_or_concat names with rfl | ⟨front, last, rfl⟩
    · exact String.intercalate_singleton
    · rw [List.concat_eq_append] at hnames' ih ⊢
      have hlast : IsName last := hnames' last (by simp)
      rw [String.intercalate_append_of_ne_nil (by simp) (by simp), ih hnames',
        String.intercalate_singleton, written_concat _ name,
        joined_of_noSlash (written_ne_empty hlast front) (not_slash_of_written hlast front)]

/-! ## Components -/

theorem head?_joined (hne : path ≠ "") (name : String) :
    (joined path name).toList.head? = path.toList.head? := by
  obtain ⟨c, cs, hcs⟩ := List.exists_cons_of_ne_nil (toList_ne_nil hne)
  by_cases hslash : path.toList.getLast? = some '/'
  · simp [joined_of_slash hslash, hcs]
  · simp [joined_of_noSlash hne hslash, hcs]

theorem isAbsolute_joined (hne : root ≠ "") (name : String) :
    isAbsolute (joined root name) = isAbsolute root := by
  rw [isAbsolute, isAbsolute, head?_joined hne]

theorem startsHere_joined (hne : root ≠ "") (name : String) :
    startsHere (joined root name) = startsHere root := by
  by_cases hslash : root.toList.getLast? = some '/'
  · obtain ⟨front, hfront, hroot, hgoes⟩ := exists_parts_of_slash hslash
    rw [startsHere, startsHere, hgoes, hroot, List.head?_append_of_ne_nil _ hfront,
      List.head?_append_of_ne_nil _ hfront]
  · rw [startsHere, startsHere, parts_joined hne hslash,
      List.head?_append_of_ne_nil _ (parts_ne_nil root)]

/-- The components of what lies in a directory begin with those of the directory, and the names on
the way are the others. -/
theorem components_joined (hne : root ≠ "") (hnames : ∀ name ∈ names, IsName name)
    (hbelow : names ≠ []) :
    components (joined root (written names)) = components root ++ names := by
  have hkept : names.filter (fun part => part != "" && part != ".") = names := by
    refine List.filter_eq_self.2 fun name hname => ?_
    simp [(hnames name hname).notEmpty, (hnames name hname).notHere]
  have hwritten : parts (written names) = names := parts_written hnames hbelow
  have hjoined : (parts (joined root (written names))).filter
      (fun part => part != "" && part != ".") =
        (parts root).filter (fun part => part != "" && part != ".") ++ names := by
    by_cases hslash : root.toList.getLast? = some '/'
    · -- the empty part behind a slash at the end is none of the components
      obtain ⟨front, -, hroot, hgoes⟩ := exists_parts_of_slash hslash
      rw [hgoes, hroot, hwritten, List.filter_append, List.filter_append, hkept]
      simp
    · rw [parts_joined hne hslash, hwritten, List.filter_append, hkept]
  unfold components
  rw [isAbsolute_joined hne, startsHere_joined hne, hjoined]
  cases isAbsolute root <;> cases startsHere root <;> rfl

theorem parts_intercalate {ps : List String} (h : ∀ part ∈ ps, '/' ∉ part.toList) (hne : ps ≠ []) :
    parts ("/".intercalate ps) = ps := by
  induction ps with
  | nil => exact absurd rfl hne
  | cons part ps ih =>
    obtain ⟨hpart, hps⟩ := List.forall_mem_cons.1 h
    cases ps with
    | nil => rw [String.intercalate_singleton, parts_of_noSlash hpart]
    | cons next ps =>
      rw [String.intercalate_cons_cons, parts_append_slash, parts_of_noSlash hpart,
        ih hps (by simp), List.singleton_append]

theorem noSlash_of_mem_parts {part : String} (h : part ∈ parts path) : '/' ∉ part.toList := by
  obtain ⟨piece, hpiece, rfl⟩ := List.mem_map.1 h
  rw [String.toList_ofList]
  exact notMem_of_mem_pieces hpiece

/-- Only a path whose first character is a dot starts with one. -/
theorem head?_of_startsHere (h : startsHere path = true) : path.toList.head? = some '.' := by
  obtain ⟨rest, hparts⟩ := List.head?_eq_some_iff.1 (eq_of_beq h)
  obtain ⟨piece, pieces, hpieces, hdot, -⟩ := List.map_eq_cons_iff.1 hparts
  have hpiece : piece = ['.'] := by simpa using congrArg String.toList hdot
  exact head?_of_pieces (hpiece ▸ hpieces)

/-- A dot is the first component of a path that starts with one, and of no other. -/
theorem head?_components_iff : (components path).head? = some "." ↔ startsHere path = true := by
  unfold components
  cases habsolute : isAbsolute path with
  | true =>
    refine iff_of_false (by simp) fun hhere => ?_
    rw [isAbsolute, head?_of_startsHere hhere] at habsolute
    cases habsolute
  | false =>
    cases hhere : startsHere path with
    | true => simp
    | false =>
      simp only [Bool.false_eq_true, iff_false]
      intro hhead
      have hmem := List.mem_of_mem_head? hhead
      simp at hmem

/-! ## Following a path from a directory -/

namespace Tree

theorem ne_empty_of_locate {t : Tree} {place : Place} (h : t.locate path = .ok place) :
    path ≠ "" := by
  rintro rfl
  cases h

/-- Where a path fails to lead anywhere, it does so however it goes on; otherwise what comes after
it is followed from the place to which it leads. -/
theorem follow_append (t : Tree) (links : Nat) (place : Place) (front : List String) :
    (∃ fault, t.follow true links place front = .error fault ∧
      ∀ rest, t.follow true links place (front ++ rest) = .error fault) ∨
    ∃ place' links', t.follow true links place front = .ok place' ∧
      ∀ rest, t.follow true links place (front ++ rest) = t.follow true links' place' rest := by
  fun_induction follow t true links place front with
  | case1 links place => exact .inr ⟨place, links, rfl, fun rest => rfl⟩
  | case2 links place part front hnode =>
    refine .inl ⟨_, rfl, fun rest => ?_⟩
    simp only [List.cons_append, follow, hnode]
  | case3 links place part front bytes modified hnode =>
    refine .inl ⟨_, rfl, fun rest => ?_⟩
    simp only [List.cons_append, follow, hnode]
  | case4 links place part front target hnode =>
    refine .inl ⟨_, rfl, fun rest => ?_⟩
    simp only [List.cons_append, follow, hnode]
  | case5 links place part front hnode hpart ih =>
    simpa only [List.cons_append, follow, hnode, if_pos hpart] using ih
  | case6 links place front hnode hpart ih =>
    simpa only [List.cons_append, follow, hnode, if_neg hpart, if_true] using ih
  | case7 links place part front hnode hpart hup target hlink hlast => simp at hlast
  | case8 place part front hnode hpart hup target hlink hlast =>
    refine .inl ⟨_, rfl, fun rest => ?_⟩
    simp only [List.cons_append, follow, hnode, if_neg hpart, if_neg hup, hlink, Bool.not_true,
      Bool.and_false, Bool.false_eq_true, if_false]
  | case9 place part front hnode hpart hup target hlink hlast links ih =>
    simpa only [List.cons_append, follow, hnode, if_neg hpart, if_neg hup, hlink, Bool.not_true,
      Bool.and_false, Bool.false_eq_true, if_false, List.append_assoc, dite_eq_ite] using ih
  | case10 links place part front hnode hpart hup hlink ih =>
    have hgo : ∀ rest, t.follow true links place (part :: rest) =
        t.follow true links (place ++ [part]) rest := by
      intro rest
      simp only [follow, hnode, if_neg hpart, if_neg hup]
    simpa only [List.cons_append, hgo] using ih

/-- A name that is no link is gone through. -/
theorem follow_cons_of_isName {t : Tree} {place : Place} {name : String} (links : Nat)
    (hdir : t.node? place = some .directory) (hname : IsName name)
    (hlink : ∀ target, t.node? (place ++ [name]) ≠ some (.link target)) (rest : List String) :
    t.follow true links place (name :: rest) = t.follow true links (place ++ [name]) rest := by
  have hskip : ¬(name = "" ∨ name = ".") := fun h => h.elim hname.notEmpty hname.notHere
  simp only [follow, hdir, if_neg hskip, if_neg hname.notUp]

/-- An empty last part makes no difference, unless it is not a directory that it comes after. -/
theorem follow_of_slash {t : Tree} {links : Nat} {place top : Place} {front : List String}
    (h : t.follow true links place (front ++ [""]) = .ok top) :
    t.follow true links place front = .ok top := by
  obtain ⟨fault, _, hfails⟩ | ⟨place', links', hfront, hgoes⟩ := t.follow_append links place front
  · rw [hfails] at h
    cases h
  · rw [hgoes] at h
    rw [hfront, ← h]
    simp only [follow] at h
    split at h <;> simp_all [follow]

end Tree
end NoteSearch.Disk

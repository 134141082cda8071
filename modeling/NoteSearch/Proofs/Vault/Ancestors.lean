import NoteSearch.Proofs.Text.Trimming
import NoteSearch.Vault.Path

/-!
# The folders around a path

The folders around a path are found character by character, its own folder from the last slash, and
folders that are asked for are trimmed. Whichever way, a folder is what stands before a slash.
-/
namespace NoteSearch.Vault.Path

variable {before folder path text : List Char}

theorem mem_ancestorsFrom_iff :
    folder ∈ ancestorsFrom before path ↔
      ∃ front, front ++ ['/'] <+: path ∧ folder = before.reverse ++ front := by
  induction path generalizing before with
  | nil => simp [ancestorsFrom]
  | cons c path ih =>
    -- Whether or not a folder ends before this character, the others go on behind it.
    have hlater : folder ∈ ancestorsFrom (c :: before) path ↔
        ∃ front, front ++ ['/'] <+: path ∧ folder = before.reverse ++ c :: front := by
      simp [ih]
    have hsplit : folder ∈ ancestorsFrom before (c :: path) ↔
        c = '/' ∧ folder = before.reverse ∨ folder ∈ ancestorsFrom (c :: before) path := by
      rw [ancestorsFrom]
      split
      · next hslash => simp [hslash]
      · next hslash => simp [hslash]
    rw [hsplit, hlater]
    constructor
    · rintro (⟨rfl, rfl⟩ | ⟨front, hfront, rfl⟩)
      · exact ⟨[], by simp [List.cons_prefix_cons], by simp⟩
      · exact ⟨c :: front, by simpa [List.cons_prefix_cons] using hfront, rfl⟩
    · rintro ⟨front, hfront, rfl⟩
      cases front with
      | nil => exact .inl (by simpa [List.cons_prefix_cons, eq_comm] using hfront)
      | cons d front =>
        obtain ⟨rfl, hbehind⟩ := List.cons_prefix_cons.1 hfront
        exact .inr ⟨front, hbehind, rfl⟩

/-- The folders around a path are what stands before its slashes. -/
theorem mem_ancestors_iff : folder ∈ ancestors path ↔ folder ++ ['/'] <+: path := by
  simp [ancestors, mem_ancestorsFrom_iff]

/-- A folder around a path is the start of it. -/
theorem prefix_of_mem_ancestors (h : folder ∈ ancestors path) : folder <+: path :=
  (List.prefix_append _ _).trans (mem_ancestors_iff.1 h)

theorem ne_nil_of_mem_ancestors (hpath : path.head? ≠ some '/') (h : folder ∈ ancestors path) :
    folder ≠ [] := by
  rintro rfl
  obtain ⟨rest, rfl⟩ := mem_ancestors_iff.1 h
  exact hpath rfl

/-! ## The folder of a path -/

theorem parent_of_notMem (h : '/' ∉ path) : parent path = [] := by
  have hnone : path.reverse.dropWhile notSlash = [] := by
    rw [List.dropWhile_eq_nil_iff]
    intro c hc
    have hne : c ≠ '/' := fun hslash => h (hslash ▸ List.mem_reverse.1 hc)
    simpa [notSlash] using hne
  rw [parent, hnone]
  rfl

/-- A path with a slash is its folder, the last slash and its last part. -/
theorem parent_append_last (h : '/' ∈ path) : parent path ++ '/' :: last path = path := by
  have hne : path.reverse.dropWhile notSlash ≠ [] := by
    rw [ne_eq, List.dropWhile_eq_nil_iff]
    exact fun hall => absurd (hall '/' (List.mem_reverse.2 h)) (by decide)
  have hslash : (path.reverse.dropWhile notSlash).head hne = '/' := by
    simpa [notSlash] using List.head_dropWhile_not notSlash hne
  have hbehind : path.reverse.dropWhile notSlash =
      '/' :: (path.reverse.dropWhile notSlash).tail := by
    rw [← hslash, List.cons_head_tail]
  have hsplit : (path.reverse.takeWhile notSlash ++ path.reverse.dropWhile notSlash).reverse =
      path := by
    rw [List.takeWhile_append_dropWhile, List.reverse_reverse]
  rw [hbehind, List.reverse_append, List.reverse_cons, List.append_assoc] at hsplit
  exact hsplit

/-- The folder of a path is one of those around it, unless it is the root. -/
theorem parent_mem_ancestors (h : parent path ≠ []) : parent path ∈ ancestors path := by
  have hmem : '/' ∈ path := by
    by_contra hnot
    exact h (parent_of_notMem hnot)
  rw [mem_ancestors_iff]
  exact ⟨last path, by simpa using parent_append_last hmem⟩

/-! ## Trimmed folders -/

theorem trimSlashesStart_eq_self (h : text.head? ≠ some '/') : trimSlashesStart text = text := by
  cases text with
  | nil => rfl
  | cons c text =>
    have hc : c ≠ '/' := by simpa using h
    exact List.dropWhile_cons_of_neg (by simpa using hc)

/-- Where a text does not begin with a slash, only slashes at its end are trimmed. -/
theorem exists_trimSlashes_append (h : text.head? ≠ some '/') :
    ∃ slashes, trimSlashes text ++ List.replicate slashes '/' = text := by
  obtain ⟨slashes, hslashes⟩ := Text.exists_eq_rdropWhile_append '/' text
  refine ⟨slashes, ?_⟩
  rw [trimSlashes, trimSlashesStart_eq_self h]
  exact hslashes.symm

/-- No slash is left at the start, -/
theorem head?_trimSlashes (text : List Char) : (trimSlashes text).head? ≠ some '/' := by
  obtain ⟨slashes, hslashes⟩ := Text.exists_eq_rdropWhile_append '/' (trimSlashesStart text)
  intro hhead
  have hstart : (text.dropWhile (· == '/')).head? = some '/' := by
    change (trimSlashesStart text).head? = _
    rw [hslashes, List.head?_append]
    change (trimSlashes text).head?.or _ = _
    rw [hhead]
    rfl
  have hnot := List.head?_dropWhile_not (· == '/') text
  rw [hstart] at hnot
  cases hnot

/-- and none at the end. -/
theorem getLast?_trimSlashes (text : List Char) : (trimSlashes text).getLast? ≠ some '/' := by
  intro hlast
  have hnot := List.head?_dropWhile_not (· == '/') (trimSlashesStart text).reverse
  rw [trimSlashes, List.getLast?_reverse] at hlast
  rw [hlast] at hnot
  cases hnot

theorem trimSlashes_of_ends {core : List Char} (hhead : core.head? ≠ some '/')
    (hlast : core.getLast? ≠ some '/') (before after : Nat) :
    trimSlashes (List.replicate before '/' ++ core ++ List.replicate after '/') = core := by
  have hslash : ∀ n, ∀ c ∈ List.replicate n '/', (c == '/') = true := fun n c hc =>
    beq_iff_eq.2 (List.eq_of_mem_replicate hc)
  have hstart : trimSlashesStart (List.replicate before '/' ++ core ++ List.replicate after '/') =
      trimSlashesStart (core ++ List.replicate after '/') := by
    rw [List.append_assoc]
    exact List.dropWhile_append_of_pos (hslash before)
  rw [trimSlashes, hstart]
  by_cases hnil : core = []
  · have hnone : trimSlashesStart (List.replicate after '/') = [] :=
      List.dropWhile_eq_nil_iff.2 (hslash after)
    rw [hnil, List.nil_append, hnone]
    rfl
  · have hkept : (core ++ List.replicate after '/').head? ≠ some '/' := by
      rwa [List.head?_append_of_ne_nil core hnil]
    have hend : core.reverse.dropWhile (· == '/') = core.reverse :=
      trimSlashesStart_eq_self (by rwa [List.head?_reverse])
    rw [trimSlashesStart_eq_self hkept, List.reverse_append, List.reverse_replicate,
      List.dropWhile_append_of_pos (hslash after), hend, List.reverse_reverse]

/-- Slashes at the ends are trimmed and nothing else: what is left has none there, and with slashes
before and after it is the text again. -/
theorem trimSlashes_eq_iff {core : List Char} : trimSlashes text = core ↔
    core.head? ≠ some '/' ∧ core.getLast? ≠ some '/' ∧
      ∃ before after, List.replicate before '/' ++ core ++ List.replicate after '/' = text := by
  constructor
  · rintro rfl
    obtain ⟨after, hafter⟩ := Text.exists_eq_rdropWhile_append '/' (trimSlashesStart text)
    obtain ⟨before, hbefore⟩ : ∃ before, text.takeWhile (· == '/') = List.replicate before '/' :=
      ⟨_, List.eq_replicate_iff.2 ⟨rfl, fun c hc => by simpa using List.mem_takeWhile_imp hc⟩⟩
    refine ⟨head?_trimSlashes text, getLast?_trimSlashes text, before, after, ?_⟩
    calc List.replicate before '/' ++ trimSlashes text ++ List.replicate after '/'
        = text.takeWhile (· == '/') ++ (trimSlashes text ++ List.replicate after '/') := by
          rw [hbefore, List.append_assoc]
      _ = text.takeWhile (· == '/') ++ trimSlashesStart text := congrArg _ hafter.symm
      _ = text := List.takeWhile_append_dropWhile
  · rintro ⟨hhead, hlast, before, after, rfl⟩
    exact trimSlashes_of_ends hhead hlast before after

/-- A folder around a path is still one when it is trimmed: if slashes are lost, the first of them
stands where the one behind the folder did. -/
theorem trimSlashes_mem_ancestors (hpath : path.head? ≠ some '/') (h : folder ∈ ancestors path) :
    trimSlashes folder ∈ ancestors path := by
  have hbehind := mem_ancestors_iff.1 h
  have hhead : folder.head? ≠ some '/' := by
    intro hslash
    obtain ⟨rest, rfl⟩ := hbehind
    obtain ⟨folder, rfl⟩ := List.head?_eq_some_iff.1 hslash
    exact hpath rfl
  obtain ⟨slashes, hfolder⟩ := exists_trimSlashes_append hhead
  rw [mem_ancestors_iff]
  refine List.IsPrefix.trans ?_ hbehind
  refine ⟨List.replicate slashes '/', ?_⟩
  rw [List.append_assoc, List.singleton_append, ← List.replicate_succ, List.replicate_succ',
    ← List.append_assoc, hfolder]

end NoteSearch.Vault.Path

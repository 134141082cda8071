import NoteSearch.Proofs.Toml.Lines
import NoteSearch.Settings.Loaded
import NoteSearch.Settings.Saved

/-!
# Settings are read as they were saved

The text of settings is a document of assignments, perhaps with a table behind it. Its reader gives
back the values as they were written, and what is not set is left to its default, so that the
settings are the same again if their numbers fit.
-/
namespace NoteSearch.Settings
open Toml (Value Assignment IsBare IsRead)

variable {s : Settings} {name : String}

/-! ## Keys and entries -/

/-- A bare name is a path of one step. -/
theorem pathOf_of_isBare (h : IsBare name) : pathOf name = [.name name] := by
  have hspan : (name.toList ++ []).span isNameChar = (name.toList, []) :=
    Toml.span_of_isBare h (by simp)
  rw [List.append_nil] at hspan
  have hname : nameAt name.toList = some (.name name, []) := by
    rw [nameAt, hspan]
    split
    · next heq => exact absurd (Prod.mk.inj heq).1 h.notEmpty
    · next heq =>
      obtain ⟨rfl, rfl⟩ := Prod.mk.inj heq
      simp
  simp [pathOf, hname, stepsFrom]

/-- Values under different bare names are gathered in their order. -/
theorem gathered_of_isBare (values : List (String × Value))
    (hbare : ∀ value ∈ values, IsBare value.1) (hnames : (values.map (·.1)).Nodup) :
    gathered values = values.map fun (name, v) => (name, merged .empty (Entry.ofToml v)) := by
  -- what was gathered before has none of the names that are still to come
  have hgo : ∀ fields : List (String × Entry), (∀ value ∈ values, fields.lookup value.1 = none) →
      values.foldl (fun root (key, value) =>
        change (fun below => merged below (Entry.ofToml value)) (pathOf key) root) (.table fields) =
      .table (fields ++ values.map fun (name, v) => (name, merged .empty (Entry.ofToml v))) := by
    induction values with
    | nil => simp
    | cons value values ih =>
      obtain ⟨name, v⟩ := value
      intro fields hnew
      rw [List.map_cons, List.nodup_cons] at hnames
      have hlookup : fields.lookup name = none := hnew (name, v) List.mem_cons_self
      have hpath : pathOf name = [.name name] :=
        pathOf_of_isBare (hbare (name, v) List.mem_cons_self)
      rw [List.foldl_cons]
      simp only [hpath, change, hlookup, Option.getD_none, Keyed.put_of_new hlookup]
      rw [ih (fun value hmem => hbare value (List.mem_cons_of_mem _ hmem)) hnames.2, List.map_cons,
        List.append_assoc, List.singleton_append]
      intro value hmem
      have hne : value.1 ≠ name := fun heq =>
        hnames.1 (List.mem_map.2 ⟨value, hmem, heq⟩)
      rw [List.lookup_append, hnew value (List.mem_cons_of_mem _ hmem), List.lookup_cons,
        beq_eq_false_iff_ne.2 hne]
      rfl
  rw [gathered, hgo [] (fun _ _ => rfl), List.nil_append]

/-! ## Lines -/

/-- All numbers fit into a signed 64-bit word. -/
structure Fits (s : Settings) : Prop where
  batch : s.batch < Decimal.signedLimit
  limit : s.limit < Decimal.signedLimit
  maxSuggestions : s.maxSuggestions < Decimal.signedLimit
  bodies : s.bodies < Decimal.signedLimit

theorem fits_iff : s.Fits ↔ ∀ number ∈ s.numbers, number.2 < Decimal.signedLimit := by
  simp only [numbers, List.mem_cons, List.not_mem_nil, or_false, forall_eq_or_imp, forall_eq]
  exact ⟨fun ⟨hbatch, hlimit, hmax, hbodies⟩ => ⟨hbatch, hlimit, hmax, hbodies⟩,
    fun ⟨hbatch, hlimit, hmax, hbodies⟩ => ⟨hbatch, hlimit, hmax, hbodies⟩⟩

/-- There is a text exactly for settings whose numbers fit. -/
theorem text?_of_fits (h : s.Fits) : s.text? = some s.text := by
  rw [text?, if_pos]
  simpa using fits_iff.1 h

theorem text?_of_not_fits (h : ¬s.Fits) : s.text? = none := by
  rw [text?, if_neg]
  rw [fits_iff] at h
  simpa using h

theorem isRead_flag (b : Bool) : IsRead (flag b) (.bool b) := by
  cases b
  · exact Toml.isRead_plain (by simp [flag]) (by simp [flag, Toml.endsPlain]) (by simp [flag]) rfl
  · exact Toml.isRead_plain (by simp [flag]) (by simp [flag, Toml.endsPlain]) (by simp [flag]) rfl

/-- A line with a text. -/
def textLine (name text : String) (h : IsBare name) : Assignment :=
  ⟨name, Toml.quoted text.toList, .string text, h, by
    simpa using Toml.isRead_quoted text.toList⟩

/-- A line with a number. -/
def numberLine (name : String) (n : Nat) (h : IsBare name) (hn : n < Decimal.signedLimit) :
    Assignment :=
  ⟨name, Decimal.digits n, .integer n, h, Toml.isRead_digits hn⟩

/-- A line with a truth value. -/
def flagLine (name : String) (b : Bool) (h : IsBare name) : Assignment :=
  ⟨name, flag b, .bool b, h, isRead_flag b⟩

/-- The lines at the top. -/
def topLines (s : Settings) (h : s.Fits) : List Assignment :=
  (s.vault.toList.map fun vault => textLine "vault" vault (by decide)) ++
    [numberLine "batch_size" s.batch (by decide) h.batch,
      numberLine "fetch_timeout_ms" s.limit (by decide) h.limit,
      numberLine "max_suggestions" s.maxSuggestions (by decide) h.maxSuggestions,
      numberLine "body_cache_capacity" s.bodies (by decide) h.bodies,
      flagLine "quiet" s.quiet (by decide)]

/-- The lines of a default order. -/
def sortLines (sort : Search.SortChoice) : List Assignment :=
  [textLine "type" sort.key.word (by decide),
    flagLine "reverse" sort.reverse (by decide)]

/-- What the lines at the top set. -/
def topValues (s : Settings) : List (String × Value) :=
  (s.vault.toList.map fun vault => ("vault", .string vault)) ++
    [("batch_size", .integer s.batch), ("fetch_timeout_ms", .integer s.limit),
      ("max_suggestions", .integer s.maxSuggestions), ("body_cache_capacity", .integer s.bodies),
      ("quiet", .bool s.quiet)]

theorem values_topLines (h : s.Fits) :
    (s.topLines h).map (fun a => (a.name, a.value)) = s.topValues := by
  rw [topLines, List.map_append, List.map_map]
  rfl

/-- Names are set in their order. -/
theorem names_topValues (s : Settings) : (s.topValues.map (·.1)).Sublist names.dropLast := by
  have hvault : (s.vault.toList.map fun _ => "vault").Sublist ["vault"] := by
    cases s.vault <;> simp
  rw [topValues, List.map_append, List.map_map]
  exact hvault.append (List.Sublist.refl ["batch_size", "fetch_timeout_ms", "max_suggestions",
    "body_cache_capacity", "quiet"])

theorem names_topLines (h : s.Fits) :
    ((s.topLines h).map (·.name)).Sublist names.dropLast := by
  have hnames := s.names_topValues
  rw [← values_topLines h, List.map_map] at hnames
  exact hnames

theorem line_assignment (a : Assignment) : a.line = line a.name a.text := rfl

/-- The text of settings has the lines at the top, and perhaps a table behind them. -/
theorem toList_text (h : s.Fits) : s.text.toList =
    (s.topLines h).flatMap Assignment.line ++ s.sort.elim [] sortTable := by
  rw [text, String.toList_ofList, topLines, List.flatMap_append]
  cases s.vault <;> cases s.sort <;>
    simp only [numbers, line_assignment, textLine, numberLine, flagLine, Option.toList_none,
      Option.toList_some, Option.elim_none, Option.elim_some, List.map_nil, List.map_cons,
      List.flatMap_nil, List.flatMap_cons, List.nil_append, List.append_nil, List.append_assoc]

theorem lines_sortLines (sort : Search.SortChoice) : (sortLines sort).flatMap Assignment.line =
    line "type" (Toml.quoted sort.key.word.toList) ++ line "reverse" (flag sort.reverse) := by
  rw [sortLines, List.flatMap_cons, List.flatMap_singleton]
  rfl

theorem sortTable_eq (sort : Search.SortChoice) : sortTable sort = "\n[".toList ++
    "default_sort".toList ++ "]\n".toList ++ (sortLines sort).flatMap Assignment.line := by
  have hheader : "\n[default_sort]\n".toList =
      "\n[".toList ++ "default_sort".toList ++ "]\n".toList := rfl
  rw [lines_sortLines, ← hheader]
  exact List.append_assoc _ _ _

/-! ## The whole text -/

/-- What the text of settings sets. -/
def savedValues (s : Settings) : List (String × Value) :=
  s.topValues ++ s.sort.toList.map fun sort =>
    ("default_sort", .table [("type", .string sort.key.word), ("reverse", .bool sort.reverse)])

theorem parse_text (h : s.Fits) : Toml.parse s.text.toList = some s.savedValues := by
  have hsub := names_topLines h
  have hnodup : ((s.topLines h).map (·.name)).Nodup := hsub.nodup (by decide)
  have hnew : "default_sort" ∉ (s.topLines h).map (·.name) := fun hmem =>
    absurd (hsub.subset hmem) (by decide)
  rw [toList_text h, savedValues, ← values_topLines h]
  cases s.sort with
  | none => simpa using Toml.parse_assignments _ hnodup
  | some sort =>
    rw [Option.elim_some, sortTable_eq]
    exact Toml.parse_following _ _ hnodup (by simp [sortLines, textLine, flagLine]) (by decide) hnew

theorem head?_text (h : s.Fits) : s.text.toList.head? ≠ some Toml.byteOrderMark := by
  rw [toList_text h]
  refine Toml.head?_assignments _ ?_
  cases s.sort with
  | none => simp
  | some sort =>
    rw [Option.elim_some, sortTable_eq]
    simp [Toml.byteOrderMark]

/-- Names are set in their order also with the table at the end. -/
theorem names_savedValues (s : Settings) : (s.savedValues.map (·.1)).Sublist names := by
  have hsort : (s.sort.toList.map fun _ => "default_sort").Sublist ["default_sort"] := by
    cases s.sort <;> simp
  rw [savedValues, List.map_append, List.map_map]
  exact s.names_topValues.append hsort

theorem isBare_of_mem_names (h : name ∈ names) : IsBare name := by
  have hall : ∀ name ∈ names, IsBare name := by decide
  exact hall name h

theorem gathered_savedValues (s : Settings) : gathered s.savedValues =
    s.savedValues.map fun (name, v) => (name, merged .empty (Entry.ofToml v)) := by
  have hsub := s.names_savedValues
  exact gathered_of_isBare _
    (fun value hmem => isBare_of_mem_names (hsub.subset (List.mem_map_of_mem hmem)))
    (hsub.nodup (by decide))

theorem ofWord?_word (key : Search.SortKey) : Search.SortKey.ofWord? key.word = some key := by
  cases key <;> decide

/-- What is set comes back, and what is not is left to its default. -/
theorem ofEntries?_savedValues (s : Settings) : ofEntries? (s.savedValues.map fun (name, v) =>
    (name, merged .empty (Entry.ofToml v))) = some s := by
  obtain ⟨vault, batch, limit, maxSuggestions, bodies, quiet, sort⟩ := s
  -- a vault and an order may each be set or not
  cases vault <;> cases sort <;>
    simp [savedValues, topValues, ofEntries?, setting, List.lookup_cons, Entry.ofToml, merged,
      Entry.optional, Entry.text?, Entry.word?, Entry.flag?, Entry.sort?, Entry.sortKey?,
      ofWord?_word, mergedAll, Keyed.put, fieldsOf]

/-- Settings that fit are read as they were saved. -/
theorem read?_text (h : s.Fits) : read? s.text = some s := by
  have hmark : Toml.withoutMark s.text.toList = s.text.toList := if_neg (head?_text h)
  rw [read?, hmark, parse_text h, Option.bind_eq_bind, Option.bind_some, gathered_savedValues,
    ofEntries?_savedValues]

end NoteSearch.Settings

import NoteSearch.Filter.Interchange
import NoteSearch.Proofs.Json.Written

/-!
# Filters read from objects

An object stands for a filter by the values that it gives to five names. Neither the order of its
fields nor what stands under other names matters, and a reversal may be left out where there
is none.
-/
namespace NoteSearch

namespace Json

/-! ## Values of names -/

/-- A value that has no parts, and is no number. -/
inductive IsScalar : Json → Prop
  | null : IsScalar .null
  | bool (b : Bool) : IsScalar (.bool b)
  | string (s : String) : IsScalar (.string s)

variable {v : Json} {fields others : List (String × Json)} {name : String}

theorem IsScalar.isPlain (h : v.IsScalar) : v.IsPlain := by
  cases h with
  | null => exact .null
  | bool b => exact .bool b
  | string s => exact .string s

theorem IsScalar.sound (h : v.IsScalar) (depth : Nat) : v.sound depth = true := by
  cases h <;> cases depth <;> rfl

theorem sound_object (h : ∀ field ∈ fields, field.2.IsScalar) (depth : Nat) :
    (object fields).sound (depth + 1) = true := by
  rw [Json.sound, List.all_eq_true]
  exact fun field hfield => (h field hfield).sound depth

theorem isPlain_object (h : ∀ field ∈ fields, field.2.IsScalar) : (object fields).IsPlain :=
  .object fun field hfield => (h field hfield).isPlain

theorem valuesOf_perm (h : fields.Perm others) (name : String) :
    (valuesOf fields name).Perm (valuesOf others name) := (h.filter _).map _

theorem valuesOf_append (fields others : List (String × Json)) (name : String) :
    valuesOf (fields ++ others) name = valuesOf fields name ++ valuesOf others name := by
  rw [valuesOf, List.filter_append, List.map_append]
  rfl

theorem valuesOf_eq_nil (h : ∀ field ∈ fields, field.1 ≠ name) : valuesOf fields name = [] := by
  rw [valuesOf, List.map_eq_nil_iff, List.filter_eq_nil_iff]
  exact fun field hfield heq => h field hfield (eq_of_beq heq)

/-- Where the same values stand in another order, they are the same or there is more than one. -/
theorem eq_or_many_of_perm {vs ws : List Json} (h : vs.Perm ws) :
    vs = ws ∨ ∃ a b rest c d more, vs = a :: b :: rest ∧ ws = c :: d :: more := by
  match vs, ws, h.length_eq with
  | [], _, _ => exact .inl (List.nil_perm.1 h).symm
  | [_], _, _ => exact .inl (List.singleton_perm.1 h)
  | a :: b :: rest, c :: d :: more, _ => exact .inr ⟨a, b, rest, c, d, more, rfl, rfl⟩

theorem required?_congr (h : (valuesOf fields name).Perm (valuesOf others name)) :
    required? fields name = required? others name := by
  unfold required?
  obtain heq | ⟨_, _, _, _, _, _, hmany, hothers⟩ := eq_or_many_of_perm h
  · rw [heq]
  · rw [hmany, hothers]

theorem optional?_congr {α : Type} (h : (valuesOf fields name).Perm (valuesOf others name))
    (read : Json → Option α) (default : α) :
    optional? fields name read default = optional? others name read default := by
  unfold optional?
  obtain heq | ⟨_, _, _, _, _, _, hmany, hothers⟩ := eq_or_many_of_perm h
  · rw [heq]
  · rw [hmany, hothers]

end Json

namespace Filter
open Json

/-! ## The fields of a filter -/

/-- The names by which a filter is read. -/
def ownNames : List String := ["type", "value", "reversed", "exists", "alias"]

/-- An object has the fields of a filter, in any order, and perhaps others of no significance. A
reversal that is false may be missing. -/
def Describes (fields : List (String × Json)) (f : Filter) : Prop :=
  ∃ own kept others : List (String × Json), f.toJson = .object own ∧
    (kept = own ∨ f.reversed = false ∧ kept = own.filter (·.1 != "reversed")) ∧
    fields.Perm (kept ++ others) ∧ ∀ field ∈ others, field.1 ∉ ownNames ∧ field.2.IsScalar

/-- The fields that a filter is written with. -/
def ownFields (f : Filter) : List (String × Json) :=
  ("type", .string f.facet.name) :: (match f.probe with
    | .link present label =>
      ("exists", .bool present) :: (match label with
        | some label => [("alias", .string label)]
        | none => [])
    | _ => []) ++ [("value", .string f.value), ("reversed", .bool f.reversed)]

variable {f : Filter} {fields : List (String × Json)}

theorem toJson_eq (f : Filter) : f.toJson = .object f.ownFields := by
  obtain ⟨probe, value, reversed⟩ := f
  cases probe <;> rfl

/-- Those fields that are kept, and others that mean nothing. -/
theorem Describes.exists_kept (h : Describes fields f) :
    ∃ kept others, fields.Perm (kept ++ others) ∧
      (kept = f.ownFields ∨ f.reversed = false ∧ kept = f.ownFields.filter (·.1 != "reversed")) ∧
      ∀ field ∈ others, field.1 ∉ ownNames ∧ field.2.IsScalar := by
  obtain ⟨own, kept, others, hown, hkept, hperm, hothers⟩ := h
  rw [toJson_eq] at hown
  cases hown
  exact ⟨kept, others, hperm, hkept, hothers⟩

theorem isScalar_ownFields (f : Filter) : ∀ field ∈ f.ownFields, field.2.IsScalar := by
  obtain ⟨probe, value, reversed⟩ := f
  cases probe with
  | link present label =>
    cases label <;> simp [ownFields, IsScalar.string, IsScalar.bool]
  | _ => simp [ownFields, IsScalar.string, IsScalar.bool]

theorem Describes.isScalar (h : Describes fields f) : ∀ field ∈ fields, field.2.IsScalar := by
  obtain ⟨kept, others, hperm, hkept, hothers⟩ := h.exists_kept
  intro field hfield
  obtain hmem | hmem := List.mem_append.1 (hperm.mem_iff.1 hfield)
  · refine f.isScalar_ownFields field ?_
    obtain rfl | ⟨-, rfl⟩ := hkept
    · exact hmem
    · exact (List.mem_filter.1 hmem).1
  · exact (hothers field hmem).2

/-! ## Reading -/

/-- What is read of an object depends on the values of the names alone. -/
theorem ofJson?_congr {others : List (String × Json)} {depth : Nat}
    (hsound : (Json.object fields).sound depth = (Json.object others).sound depth)
    (h : ∀ name ∈ ownNames, (valuesOf fields name).Perm (valuesOf others name)) :
    ofJson? depth (.object fields) = ofJson? depth (.object others) := by
  have htype := required?_congr (h "type" (by decide))
  have hvalue := required?_congr (h "value" (by decide))
  have hreversed := optional?_congr (h "reversed" (by decide)) Json.bool? false
  have hprobe (facet : Facet) : probeOfFields? fields facet = probeOfFields? others facet := by
    have hexists := required?_congr (h "exists" (by decide))
    have halias := optional?_congr (h "alias" (by decide)) labelOfJson? none
    cases facet <;> simp only [probeOfFields?, hexists, halias]
  simp only [ofJson?, hsound, htype, hvalue, hreversed, hprobe]

theorem ofJson?_ownFields (f : Filter) (depth : Nat) :
    ofJson? (depth + 1) (.object f.ownFields) = some f := by
  have hsound := sound_object f.isScalar_ownFields depth
  obtain ⟨probe, value, reversed⟩ := f
  cases probe with
  | link present label => cases label <;> simp only [ofJson?, hsound] <;> rfl
  | _ =>
    simp only [ofJson?, hsound]
    rfl

/-- A filter is read from what it is written as. -/
theorem ofJson?_toJson (f : Filter) (depth : Nat) : ofJson? (depth + 1) f.toJson = some f := by
  rw [toJson_eq, ofJson?_ownFields]

/-- A reversal that is false need not be written. -/
theorem ofJson?_unreversed (h : f.reversed = false) (depth : Nat) :
    ofJson? (depth + 1) (.object (f.ownFields.filter (·.1 != "reversed"))) = some f := by
  have hsound : (Json.object (f.ownFields.filter (·.1 != "reversed"))).sound (depth + 1) = true :=
    sound_object (fun field hfield => f.isScalar_ownFields field (List.mem_filter.1 hfield).1) depth
  obtain ⟨probe, value, reversed⟩ := f
  cases h
  cases probe with
  | link present label => cases label <;> simp only [ofJson?, hsound] <;> rfl
  | _ =>
    simp only [ofJson?, hsound]
    rfl

theorem Describes.ofJson?_eq (h : Describes fields f) (depth : Nat) :
    ofJson? (depth + 1) (.object fields) = some f := by
  have hscalar := h.isScalar
  obtain ⟨kept, others, hperm, hkept, hothers⟩ := h.exists_kept
  have hsound : (Json.object kept).sound (depth + 1) = true :=
    sound_object (fun field hfield =>
      hscalar field (hperm.mem_iff.2 (List.mem_append_left others hfield))) depth
  have hvalues : ∀ name ∈ ownNames, (valuesOf fields name).Perm (valuesOf kept name) := by
    intro name hname
    have hforeign : valuesOf others name = [] :=
      valuesOf_eq_nil fun field hfield heq => (hothers field hfield).1 (heq ▸ hname)
    have hall := valuesOf_perm hperm name
    rwa [valuesOf_append, hforeign, List.append_nil] at hall
  rw [ofJson?_congr ((sound_object hscalar depth).trans hsound.symm) hvalues]
  obtain rfl | ⟨hreversed, rfl⟩ := hkept
  · exact ofJson?_ownFields f depth
  · exact ofJson?_unreversed hreversed depth

theorem isPlain_toJson (f : Filter) : f.toJson.IsPlain := by
  rw [toJson_eq]
  exact isPlain_object f.isScalar_ownFields

theorem Describes.parse_compact (h : Describes fields f) :
    Json.parse (Json.object fields).compact = some (.object fields) :=
  (isPlain_object h.isScalar).parse_compact

end Filter
end NoteSearch

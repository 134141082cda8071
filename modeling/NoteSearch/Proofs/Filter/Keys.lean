import NoteSearch.Filter.Written
import NoteSearch.Proofs.Text.Cutting

/-!
# When two filters have one key

A key is put together from the parts of a filter without escapes. It tells reversal and facet, and
for every facet but links also the value. The label and the value of a link may look like the marks
that a key sets between its parts. Apart from that the keys of different filters are different.
-/
namespace NoteSearch
open Text

/-! ## Reversal and facet in front of a text -/

namespace Facet

theorem colon_notMem_name (facet : Facet) : ':' ∉ facet.name.toList := by
  cases facet <;> decide

theorem name_injective {a b : Facet} (h : a.name = b.name) : a = b := by
  cases a <;> cases b <;> first | rfl | exact absurd h (by decide)

end Facet

namespace Filter

/-- The text behind the reversal and the facet of a filter. -/
def headed (reversed : Bool) (facet : Facet) (body : List Char) : List Char :=
  (if reversed then ['!'] else []) ++ (facet.name.toList ++ ':' :: body)

theorem toList_reversalMark (reversed : Bool) :
    (if reversed then "!" else "").toList = if reversed then ['!'] else [] := by
  cases reversed <;> rfl

theorem readReversal_headed (reversed : Bool) (facet : Facet) (body : List Char) :
    readReversal (headed reversed facet body) = (reversed, facet.name.toList ++ ':' :: body) := by
  cases reversed <;> cases facet <;> rfl

/-- The name of a facet is cut off at the colon behind it. -/
theorem cut?_name (facet : Facet) (body : List Char) :
    cut? [':'] (facet.name.toList ++ ':' :: body) = some (facet.name.toList, body) :=
  cut?_singleton_eq_some_iff.2 ⟨rfl, facet.colon_notMem_name⟩

theorem headed_eq_headed_iff {r r' : Bool} {a a' : Facet} {body body' : List Char} :
    headed r a body = headed r' a' body' ↔ r = r' ∧ a = a' ∧ body = body' := by
  constructor
  · intro h
    have hread := congrArg readReversal h
    rw [readReversal_headed, readReversal_headed, Prod.mk.injEq] at hread
    have hcut := congrArg (cut? [':']) hread.2
    rw [cut?_name, cut?_name, Option.some.injEq, Prod.mk.injEq] at hcut
    exact ⟨hread.1, Facet.name_injective (String.toList_inj.1 hcut.1), hcut.2⟩
  · rintro ⟨rfl, rfl, rfl⟩
    rfl

/-! ## Marks of links -/

/-- What stands in a key if the target of a link is missing. -/
def missingMark (present : Bool) : String := if present then "" else "nofile:"

/-- What stands in a key for the label of a link. -/
def labelMark : Option String → String
  | some label => "alias:" ++ label ++ ":"
  | none => ""

/-- What stands in a key behind the facet. -/
def keyBody : Filter → String
  | ⟨.link present label, value, _⟩ => labelMark label ++ missingMark present ++ value
  | ⟨_, value, _⟩ => value

theorem toList_key (f : Filter) : f.key.toList = headed f.reversed f.facet f.keyBody.toList := by
  obtain ⟨probe, value, reversed⟩ := f
  cases probe with
  | link present label =>
    cases label <;>
      simp [key, keyHead, keyBody, headed, toList_reversalMark, labelMark, missingMark, facet,
        Probe.facet, Facet.name]
  | tag | folder | backlink | text =>
    simp [key, keyHead, keyBody, headed, toList_reversalMark, facet]

theorem key_eq_key_iff {f g : Filter} :
    f.key = g.key ↔ f.reversed = g.reversed ∧ f.facet = g.facet ∧ f.keyBody = g.keyBody := by
  rw [← String.toList_inj, toList_key, toList_key, headed_eq_headed_iff, String.toList_inj]

/-- The label or the value of the first filter holds what marks a part of the second one, which
has the same key. -/
inductive Mimics : Filter → Filter → Prop
  /-- The value begins as if the target were missing. -/
  | missing (label : Option String) (value : String) (reversed : Bool) :
      Mimics ⟨.link true label, missingMark false ++ value, reversed⟩
        ⟨.link false label, value, reversed⟩
  /-- The value begins as if it had a label before it. -/
  | labelled (label : String) (present : Bool) (value : String) (reversed : Bool) :
      Mimics ⟨.link true none, labelMark (some label) ++ missingMark present ++ value, reversed⟩
        ⟨.link present (some label), value, reversed⟩
  /-- The label goes on behind a colon with what is value in the other one. -/
  | longer (label more : String) (present present' : Bool) (value value' : String)
      (reversed : Bool) (h : missingMark present ++ value =
        more ++ ":" ++ missingMark present' ++ value') :
      Mimics ⟨.link present' (some (label ++ ":" ++ more)), value', reversed⟩
        ⟨.link present (some label), value, reversed⟩

/-- The filters are one, or one of them mimics the other. -/
def Resembles (f g : Filter) : Prop := f = g ∨ f.Mimics g ∨ g.Mimics f

theorem Resembles.symm {f g : Filter} (h : f.Resembles g) : g.Resembles f := by
  obtain h | h | h := h
  · exact .inl h.symm
  · exact .inr (.inr h)
  · exact .inr (.inl h)

theorem Mimics.key_eq {f g : Filter} (h : f.Mimics g) : f.key = g.key := by
  rw [key_eq_key_iff]
  cases h with
  | missing label value reversed =>
    exact ⟨rfl, rfl, by simp [keyBody, missingMark, String.append_assoc]⟩
  | labelled label present value reversed =>
    exact ⟨rfl, rfl, by simp [keyBody, labelMark, missingMark]⟩
  | longer label more present present' value value' reversed h =>
    refine ⟨rfl, rfl, ?_⟩
    simp only [keyBody, labelMark, String.append_assoc] at h ⊢
    rw [h]

theorem Mimics.ne {f g : Filter} (h : f.Mimics g) : f ≠ g := by
  cases h with
  | missing label value reversed => simp
  | labelled label present value reversed => simp
  | longer label more present present' value value' reversed h =>
    intro heq
    have hlabel : label ++ ":" ++ more = label :=
      Option.some.inj (Probe.link.inj (congrArg Filter.probe heq)).2
    have hlength := congrArg String.length hlabel
    have hcolon : ":".length = 1 := rfl
    simp only [String.length_append] at hlength
    omega

/-! ## How the marks of two links can line up -/

/-- Where two texts with a mark in them are one, either the marks are one, or the mark of one text
stands behind that of the other. -/
theorem append_mark_cases {α : Type} {c : α} {a b x y : List α} (h : a ++ c :: x = b ++ c :: y) :
    (a = b ∧ x = y) ∨ (∃ more, b = a ++ c :: more ∧ x = more ++ c :: y) ∨
      ∃ more, a = b ++ c :: more ∧ y = more ++ c :: x := by
  induction a generalizing b with
  | nil =>
    cases b with
    | nil => exact .inl ⟨rfl, (List.cons.inj h).2⟩
    | cons d b =>
      obtain ⟨rfl, hx⟩ := List.cons.inj h
      exact .inr (.inl ⟨b, rfl, hx⟩)
  | cons d a ih =>
    cases b with
    | nil =>
      obtain ⟨rfl, hy⟩ := List.cons.inj h
      exact .inr (.inr ⟨a, rfl, hy.symm⟩)
    | cons e b =>
      obtain ⟨rfl, htail⟩ := List.cons.inj h
      simpa using ih htail

theorem colon_append_cases {a b x y : String} (h : a ++ ":" ++ x = b ++ ":" ++ y) :
    (a = b ∧ x = y) ∨ (∃ more, b = a ++ ":" ++ more ∧ x = more ++ ":" ++ y) ∨
      ∃ more, a = b ++ ":" ++ more ∧ y = more ++ ":" ++ x := by
  have htext : a.toList ++ ':' :: x.toList = b.toList ++ ':' :: y.toList := by
    simpa using congrArg String.toList h
  obtain ⟨hab, hxy⟩ | ⟨more, hb, hx⟩ | ⟨more, ha, hy⟩ := append_mark_cases htext
  · exact .inl ⟨String.toList_inj.1 hab, String.toList_inj.1 hxy⟩
  · refine .inr (.inl ⟨String.ofList more, ?_, ?_⟩)
    · simp [← String.toList_inj, hb]
    · simp [← String.toList_inj, hx]
  · refine .inr (.inr ⟨String.ofList more, ?_, ?_⟩)
    · simp [← String.toList_inj, ha]
    · simp [← String.toList_inj, hy]

theorem missingMark_append_cases {present present' : Bool} {value value' : String}
    (h : missingMark present ++ value = missingMark present' ++ value') :
    (present = present' ∧ value = value') ∨
      (present = true ∧ present' = false ∧ value = missingMark false ++ value') ∨
      present = false ∧ present' = true ∧ value' = missingMark false ++ value := by
  cases present <;> cases present' <;> simp_all [missingMark]

section
variable {present present' reversed : Bool} {value value' : String}

theorem resembles_of_one_label (label : Option String)
    (h : missingMark present ++ value = missingMark present' ++ value') :
    Resembles ⟨.link present label, value, reversed⟩ ⟨.link present' label, value', reversed⟩ := by
  obtain ⟨rfl, rfl⟩ | ⟨rfl, rfl, rfl⟩ | ⟨rfl, rfl, rfl⟩ := missingMark_append_cases h
  · exact .inl rfl
  · exact .inr (.inl (.missing label value' reversed))
  · exact .inr (.inr (.missing label value reversed))

/-- An unlabelled link can only have the key of a labelled one if its target is there. -/
theorem resembles_of_labelled {label : String}
    (h : missingMark present ++ value = labelMark (some label) ++ missingMark present' ++ value') :
    Resembles ⟨.link present none, value, reversed⟩
      ⟨.link present' (some label), value', reversed⟩ := by
  cases present with
  | true =>
    have hvalue : value = labelMark (some label) ++ missingMark present' ++ value' := by
      simpa [missingMark] using h
    rw [hvalue]
    exact .inr (.inl (.labelled label present' value' reversed))
  | false =>
    have hhead := congrArg (fun s => s.toList.head?) h
    simp [missingMark, labelMark] at hhead

theorem resembles_of_two_labels {label label' : String}
    (h : label ++ ":" ++ (missingMark present ++ value) =
      label' ++ ":" ++ (missingMark present' ++ value')) :
    Resembles ⟨.link present (some label), value, reversed⟩
      ⟨.link present' (some label'), value', reversed⟩ := by
  obtain ⟨rfl, hrest⟩ | ⟨more, rfl, hrest⟩ | ⟨more, rfl, hrest⟩ := colon_append_cases h
  · exact resembles_of_one_label _ hrest
  · refine .inr (.inr (.longer label more present present' value value' reversed ?_))
    simpa only [String.append_assoc] using hrest
  · refine .inr (.inl (.longer label' more present' present value' value reversed ?_))
    simpa only [String.append_assoc] using hrest

end

/-- Two filters have one key if and only if they are one, or one of them mimics the other. -/
theorem key_eq_iff_resembles {f g : Filter} : f.key = g.key ↔ f.Resembles g := by
  constructor
  · intro h
    obtain ⟨hreversed, hfacet, hbody⟩ := key_eq_key_iff.1 h
    obtain ⟨probe, value, reversed⟩ := f
    obtain ⟨probe', value', reversed'⟩ := g
    obtain rfl : reversed = reversed' := hreversed
    cases probe with
    | link present label =>
      cases probe' with
      | link present' label' =>
        simp only [keyBody] at hbody
        cases label with
        | none =>
          cases label' with
          | none => exact resembles_of_one_label none (by simpa [labelMark] using hbody)
          | some label' => exact resembles_of_labelled (by simpa [labelMark] using hbody)
        | some label =>
          cases label' with
          | none => exact (resembles_of_labelled (by simpa [labelMark] using hbody.symm)).symm
          | some label' =>
            exact resembles_of_two_labels (by simpa [labelMark, String.append_assoc] using hbody)
      | tag | folder | backlink | text => cases hfacet
    | tag | folder | backlink | text =>
      cases probe' <;> first
        | exact .inl (congrArg (Filter.mk _ · reversed) hbody)
        | cases hfacet
  · rintro (rfl | h | h)
    · rfl
    · exact h.key_eq
    · exact h.key_eq.symm

/-- Apart from mimicry a key tells its filter. -/
theorem key_eq_iff_eq {f g : Filter} (hfg : ¬ f.Mimics g) (hgf : ¬ g.Mimics f) :
    f.key = g.key ↔ f = g := by
  rw [key_eq_iff_resembles]
  exact or_iff_left (not_or.2 ⟨hfg, hgf⟩)

end Filter
end NoteSearch

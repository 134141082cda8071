import NoteSearch.Proofs.Search.Joining
import NoteSearch.Proofs.Text.Lowering

/-!
# Text that stands in a body to the letter

A filter on text compares value and body in lower case, and each of the two is brought to lower case
alone. What is found is what stands in the body in this form, which a text that stands there to the
letter does unless one of its capital sigmas becomes another letter in the body than alone.
-/
namespace NoteSearch.Search
open Text

/-- The body passes the filter on the value and is rejected by the reversed one, and so it is where
bodies are tested against many filters. -/
structure IsFoundIn (value body : String) : Prop where
  passes : passesFilter body ⟨.text, value, false⟩ = true
  rejected : passesFilter body ⟨.text, value, true⟩ = false
  passes_among (filters : List Filter) :
    Needle.allPass ((⟨.text, value, false⟩ :: filters).filterMap Needle.ofFilter?) body =
      Needle.allPass (filters.filterMap Needle.ofFilter?) body
  rejected_among (filters : List Filter) (h : ⟨.text, value, true⟩ ∈ filters) :
    Needle.allPass (filters.filterMap Needle.ofFilter?) body = false

variable {value body : String}

theorem passesFilter_text (value body : String) (reversed : Bool) :
    passesFilter body ⟨.text, value, reversed⟩ =
      (occurs (lower value.toList) (lower body.toList) != reversed) := rfl

theorem allows_text_iff {reversed : Bool} :
    Filter.Allows ⟨.text, value, reversed⟩ body ↔
      (lower value.toList <:+: lower body.toList ↔ reversed = false) := by
  simp [Filter.Allows, Filter.isText]

/-- A value is found where it stands in lower case. -/
theorem isFoundIn_iff : IsFoundIn value body ↔ lower value.toList <:+: lower body.toList := by
  constructor
  · intro hfound
    have hpasses := hfound.passes
    rwa [passesFilter_text, Bool.bne_false, occurs_iff] at hpasses
  · intro hinfix
    have hoccurs := occurs_iff.2 hinfix
    refine ⟨?_, ?_, fun filters => ?_, fun filters hmem => ?_⟩
    · rw [passesFilter_text, hoccurs]
      rfl
    · rw [passesFilter_text, hoccurs]
      rfl
    · rw [Bool.eq_iff_iff, allPass_iff, allPass_iff, List.forall_mem_cons, allows_text_iff]
      exact and_iff_right (iff_of_true hinfix rfl)
    · rw [← Bool.not_eq_true, allPass_iff]
      intro hall
      exact Bool.noConfusion ((allows_text_iff.1 (hall _ hmem)).1 hinfix)

/-- A value that stands in a body to the letter is found if every capital sigma of it is there what
it is alone, such as where no cased character is next to the value, case-ignorable ones being looked
through. The values that are found in all bodies where they stand are those whose capital sigmas are
settled by the value itself, such as all values without any. -/
theorem found_wherever_verbatim_iff (value : String) :
    ((∀ body : String, value.toList <:+: body.toList → IsFoundIn value body) ↔
      IsSettled value.toList) ∧
    ('Σ' ∉ value.toList → IsSettled value.toList) ∧
    ∀ front back : List Char,
      (KeepsSigmas front.reverse value.toList back →
        IsFoundIn value (String.ofList (front ++ value.toList ++ back))) ∧
      (startsCased front.reverse = false → startsCased back = false →
        KeepsSigmas front.reverse value.toList back) := by
  have hkept : ∀ front back : List Char, KeepsSigmas front.reverse value.toList back →
      IsFoundIn value (String.ofList (front ++ value.toList ++ back)) := by
    intro front back hkeeps
    rw [isFoundIn_iff, String.toList_ofList, lower_append_append, hkeeps.lowerBetween_eq]
    exact List.infix_append _ _ _
  refine ⟨⟨fun hall => ?_, fun hsettled body hinfix => ?_⟩, isSettled_of_notMem,
    fun front back => ⟨hkept front back, fun hfront hback => ?_⟩⟩
  · refine isSettled_of_infix fun before after => ?_
    have hfound := hall (String.ofList (before ++ value.toList ++ after)) ⟨before, after, by simp⟩
    simpa using isFoundIn_iff.1 hfound
  · obtain ⟨before, after, hbody⟩ := hinfix
    have hfound := hkept before after (hsettled.keepsSigmas _ _)
    rwa [hbody, String.ofList_toList] at hfound
  · exact keepsSigmas_of_not_startsCased hfront hback value.toList

/-- The sigma at the end of the value ends a word there, but none in the body. -/
theorem odyssey_is_overlooked :
    "ΟΔΥΣ".toList <:+: "ΟΔΥΣΣΕΙΑ".toList ∧
      passesFilter "ΟΔΥΣΣΕΙΑ" ⟨.text, "ΟΔΥΣ", false⟩ = false ∧
      passesFilter "ΟΔΥΣΣΕΙΑ" ⟨.text, "ΟΔΥΣ", true⟩ = true ∧
      Needle.allPass ([⟨.text, "ΟΔΥΣ", false⟩].filterMap Needle.ofFilter?) "ΟΔΥΣΣΕΙΑ" = false ∧
      Needle.allPass ([⟨.text, "ΟΔΥΣ", true⟩].filterMap Needle.ofFilter?) "ΟΔΥΣΣΕΙΑ" = true := by
  decide +kernel

end NoteSearch.Search

import NoteSearch.Proofs.Filter.Keys
import NoteSearch.Proofs.Text.Trimming

/-!
# Filters that can be read as they are written

What is read behind the name of a facet does not depend on the blanks around it. A filter is
canonical if it has no such blanks and its parts can be told apart; then it is read as it was
written, except that every link is taken to have a target.
-/
namespace NoteSearch.Filter
open Text

/-! ## Reading a filter as it is written -/

-- the marks between the parts of a filter are no blanks

theorem isBlank_colon : isBlank ':' = false := by decide

theorem isBlank_bar : isBlank '|' = false := by decide

theorem isBlank_tagMark : isBlank tagMark = false := by decide

/-- What is written behind the facet. -/
def writtenBody (f : Filter) : List Char :=
  match f.probe with
  | .link _ (some label) => f.value.toList ++ '|' :: label.toList
  | _ => f.value.toList

theorem toList_written (f : Filter) :
    f.written.toList = headed f.reversed f.facet f.writtenBody := by
  obtain ⟨probe, value, reversed⟩ := f
  cases probe with
  | link present label =>
    cases label <;> simp [written, writtenBody, headed, toList_reversalMark]
  | tag | folder | backlink | text => simp [written, writtenBody, headed, toList_reversalMark]

theorem readFacet_name (facet : Facet) : readFacet (trim facet.name.toList) = .ok facet := by
  cases facet <;> rfl

theorem trim_headed (reversed : Bool) (facet : Facet) (body : List Char) :
    trim (headed reversed facet body) = headed reversed facet (trimEnd body) := by
  have hstart : trimStart ((if reversed then ['!'] else []) ++ facet.name.toList) =
      (if reversed then ['!'] else []) ++ facet.name.toList := by
    cases reversed <;> cases facet <;> rfl
  rw [headed, ← List.append_assoc, trim_append_cons _ isBlank_colon, hstart, headed,
    List.append_assoc]

/-- Whatever is written behind a facet, its ends are trimmed before it is taken for a value. -/
theorem read_headed (reversed : Bool) (facet : Facet) (body : List Char) :
    read (String.ofList (headed reversed facet body)) = ofValue facet (trim body) reversed := by
  rw [read, String.toList_ofList, trim_headed, readReversal_headed]
  simp only [cut?_name]
  rw [readFacet_name, trim_trimEnd]
  rfl

theorem read_written (f : Filter) :
    read f.written = ofValue f.facet (trim f.writtenBody) f.reversed := by
  rw [← read_headed, ← toList_written, String.ofList_toList]

/-! ## Canonical filters -/

/-- Nothing of the filter is lost when it is written, apart from whether the target of a link is
there: its parts have no blanks around them, the value of a tag is one word with the mark of tags,
the label of a link can be told from its target, and only a text may be empty. -/
def IsCanonical : Filter → Prop
  | ⟨.tag, value, _⟩ =>
    value.toList.head? = some tagMark ∧ ∀ c ∈ value.toList, isBlank c = false
  | ⟨.folder, value, _⟩ | ⟨.backlink, value, _⟩ => value ≠ "" ∧ IsTrimmed value
  | ⟨.link _ none, value, _⟩ => value ≠ "" ∧ IsTrimmed value ∧ '|' ∉ value.toList
  | ⟨.link _ (some label), value, _⟩ =>
    IsTrimmed value ∧ '|' ∉ value.toList ∧ label ≠ "" ∧ IsTrimmed label
  | ⟨.text, value, _⟩ => IsTrimmed value

/-- The filter as it is read, where a link is taken to have a target. -/
def assumed : Filter → Filter
  | ⟨.link _ label, value, reversed⟩ => ⟨.link true label, value, reversed⟩
  | f => f

theorem readLink_of_no_bar {value : List Char} (h : '|' ∉ value) (reversed : Bool) :
    readLink value reversed = ⟨.link true none, String.ofList value, reversed⟩ := by
  rw [readLink, cut?_singleton_eq_none_iff.2 h]

theorem readLink_labelled {value : List Char} (h : '|' ∉ value) (label : List Char)
    (reversed : Bool) :
    readLink (value ++ '|' :: label) reversed =
      ⟨.link true (if (trim label).isEmpty then none else some (String.ofList (trim label))),
        String.ofList (trim value), reversed⟩ := by
  have hcut : cut? ['|'] (value ++ '|' :: label) = some (value, label) :=
    cut?_singleton_eq_some_iff.2 ⟨rfl, h⟩
  rw [readLink, hcut]

/-- A canonical filter is read as it was written. -/
theorem read_written_of_isCanonical {f : Filter} (h : f.IsCanonical) :
    read f.written = .ok f.assumed := by
  rw [read_written]
  obtain ⟨probe, value, reversed⟩ := f
  cases probe with
  | tag =>
    obtain ⟨hmark, hword⟩ := h
    have htrim : trim value.toList = value.toList := trim_eq_self_of_not_blank hword
    have hspaced : value.toList.any isBlank = false := by simpa using hword
    have hne : value.toList.isEmpty = false := by
      cases hvalue : value.toList with
      | nil => simp [hvalue] at hmark
      | cons c cs => rfl
    simp [facet, Probe.facet, writtenBody, htrim, ofValue, hne, hspaced, marked, hmark, assumed]
  | folder | backlink =>
    obtain ⟨hne, htrim⟩ := h
    simp [facet, Probe.facet, writtenBody, htrim.trim_eq, ofValue, hne, assumed]
  | link present label =>
    cases label with
    | none =>
      obtain ⟨hne, htrim, hbar⟩ := h
      simp [facet, Probe.facet, writtenBody, htrim.trim_eq, ofValue, hne, assumed,
        readLink_of_no_bar hbar]
    | some label =>
      obtain ⟨htrim, hbar, hne, hlabel⟩ := h
      have hbody : trim (value.toList ++ '|' :: label.toList) =
          value.toList ++ '|' :: label.toList := by
        rw [trim_append_cons _ isBlank_bar, htrim.trimStart_eq, hlabel.trimEnd_eq]
      simp [facet, Probe.facet, writtenBody, hbody, ofValue, hne, assumed,
        readLink_labelled hbar, htrim.trim_eq, hlabel.trim_eq]
  | text =>
    have htrim : IsTrimmed value := h
    simp [facet, Probe.facet, writtenBody, htrim.trim_eq, ofValue, assumed]

end NoteSearch.Filter

import NoteSearch.Proofs.Filter.Canonical

/-!
# Filters that are read and written back

What is read from a text is canonical, with one exception: the link of a value that is a bar and
nothing else has neither a target nor a label. So a filter is read as it was written exactly when it
is canonical and, being a link, is marked as present.
-/
namespace NoteSearch.Filter
open Text

/-! ## The value in a text -/

/-- What stands behind the first colon of a text, without the blanks around it. -/
def valuePart (input : String) : List Char :=
  match cut? [':'] input.toList with
  | some (_, value) => trim value
  | none => []

theorem trim_valuePart (input : String) : trim (valuePart input) = valuePart input := by
  unfold valuePart
  split
  · exact trim_trim _
  · rfl

theorem readReversal_append_colon (front back : List Char) :
    readReversal (front ++ ':' :: back) =
      ((readReversal front).1, (readReversal front).2 ++ ':' :: back) := by
  cases front with
  | nil => rfl
  | cons c front => by_cases hc : c = '!' <;> simp [readReversal, hc]

theorem readReversal_subset (cs : List Char) : (readReversal cs).2 ⊆ cs := by
  unfold readReversal
  split
  · exact List.subset_cons_self _ _
  · exact List.Subset.refl _

/-- The blanks at the ends of a text and the reversal in front of it are on the outer sides of its
first colon. -/
theorem read_of_cut? {input : String} {front back : List Char}
    (h : cut? [':'] input.toList = some (front, back)) :
    read input = (readFacet (trim (readReversal (trimStart front)).2)).bind fun facet =>
      ofValue facet (valuePart input) (readReversal (trimStart front)).1 := by
  obtain ⟨htext, hfront⟩ := cut?_singleton_eq_some_iff.1 h
  have htrim : trim input.toList = trimStart front ++ ':' :: trimEnd back := by
    rw [htext]
    exact trim_append_cons front isBlank_colon back
  have hname : ':' ∉ (readReversal (trimStart front)).2 := fun hmem =>
    hfront ((List.dropWhile_sublist isBlank).subset (readReversal_subset _ hmem))
  have hcut : cut? [':'] ((readReversal (trimStart front)).2 ++ ':' :: trimEnd back) =
      some ((readReversal (trimStart front)).2, trimEnd back) :=
    cut?_singleton_eq_some_iff.2 ⟨rfl, hname⟩
  rw [read, htrim, readReversal_append_colon, valuePart, h]
  simp only [hcut]
  rw [trim_trimEnd]
  rfl

theorem read_of_no_colon {input : String} (h : ':' ∉ input.toList) :
    read input = .error (.noColon input) := by
  have hbody : ':' ∉ (readReversal (trim input.toList)).2 := fun hmem =>
    h (trim_subset _ (readReversal_subset _ hmem))
  rw [read]
  simp only [cut?_singleton_eq_none_iff.2 hbody]

/-- What is read comes from the value of the text. -/
theorem exists_ofValue_of_read {input : String} {f : Filter} (h : read input = .ok f) :
    ∃ facet reversed, ofValue facet (valuePart input) reversed = .ok f := by
  cases hcut : cut? [':'] input.toList with
  | none =>
    rw [read_of_no_colon (cut?_singleton_eq_none_iff.1 hcut)] at h
    cases h
  | some parts =>
    rw [read_of_cut? hcut] at h
    cases hfacet : readFacet (trim (readReversal (trimStart parts.1)).2) with
    | error fault =>
      rw [hfacet] at h
      cases h
    | ok facet =>
      rw [hfacet] at h
      exact ⟨facet, _, h⟩

/-! ## The filter of a value -/

section
variable {value : List Char} {facet : Facet} {reversed : Bool} {f : Filter}

/-- What a value is taken for. Only a text may be empty, and only a tag has to be one word. -/
theorem ofValue_eq_ok_iff :
    ofValue facet value reversed = .ok f ↔ (value = [] → facet = .text) ∧
      match facet with
      | .tag => (∀ c ∈ value, isBlank c = false) ∧
          ⟨.tag, String.ofList (marked value), reversed⟩ = f
      | .folder => ⟨.folder, String.ofList value, reversed⟩ = f
      | .link => readLink value reversed = f
      | .backlink => ⟨.backlink, String.ofList value, reversed⟩ = f
      | .text => ⟨.text, String.ofList value, reversed⟩ = f := by
  cases value with
  | nil => cases facet <;> simp [ofValue]
  | cons c cs =>
    cases facet with
    | tag =>
      have hword : (∀ d ∈ c :: cs, isBlank d = false) ↔ (c :: cs).any isBlank = false := by simp
      simp only [hword]
      cases hspaced : (c :: cs).any isBlank <;> simp only [ofValue, hspaced] <;> simp
    | folder | link | backlink | text => simp [ofValue]

/-- Where a text has no blanks at its ends, what stands before and after a mark has none there. -/
theorem trimmed_of_cut? {c : Char} {front back : List Char} (hc : isBlank c = false)
    (htrim : trim value = value) (hcut : cut? [c] value = some (front, back)) :
    trimStart front = front ∧ trimEnd back = back := by
  obtain ⟨htext, hfree⟩ := cut?_singleton_eq_some_iff.1 hcut
  have hsame : cut? [c] value = some (trimStart front, trimEnd back) := by
    refine cut?_singleton_eq_some_iff.2 ⟨?_, fun hmem => hfree ?_⟩
    · rw [← trim_append_cons front hc, ← htext, htrim]
    · exact (List.dropWhile_sublist isBlank).subset hmem
  rw [hcut, Option.some.injEq, Prod.mk.injEq] at hsame
  exact ⟨hsame.1.symm, hsame.2.symm⟩

/-- A link lacks its target where a bar stands before everything else. -/
theorem value_readLink_eq_empty_iff (htrim : trim value = value) (hne : value ≠ [])
    (reversed : Bool) : (readLink value reversed).value = "" ↔ value.head? = some '|' := by
  cases hcut : cut? ['|'] value with
  | none =>
    have hbar : '|' ∉ value := cut?_singleton_eq_none_iff.1 hcut
    have hhead : value.head? ≠ some '|' := fun hhead => hbar (List.mem_of_head? hhead)
    rw [readLink_of_no_bar hbar]
    simp [hne, hhead]
  | some parts =>
    obtain ⟨target, label⟩ := parts
    obtain ⟨htext, hbar⟩ := cut?_singleton_eq_some_iff.1 hcut
    obtain ⟨hstart, -⟩ := trimmed_of_cut? isBlank_bar htrim hcut
    rw [htext, readLink_labelled hbar, String.ofList_eq_empty_iff,
      trim_eq_nil_iff_of_trimStart hstart]
    cases target with
    | nil => simp
    | cons c target =>
      have hne : c ≠ '|' := fun heq => hbar (heq ▸ List.mem_cons_self)
      simp [hne]

/-- A link is read canonically unless it has neither target nor label. -/
theorem isCanonical_readLink_iff (htrim : trim value = value) (hne : value ≠ [])
    (reversed : Bool) : (readLink value reversed).IsCanonical ↔ value ≠ ['|'] := by
  cases hcut : cut? ['|'] value with
  | none =>
    have hbar : '|' ∉ value := cut?_singleton_eq_none_iff.1 hcut
    rw [readLink_of_no_bar hbar]
    have hother : value ≠ ['|'] := fun heq => hbar (by simp [heq])
    simpa [IsCanonical, IsTrimmed, hne, htrim, hother] using hbar
  | some parts =>
    obtain ⟨target, label⟩ := parts
    obtain ⟨rfl, hbar⟩ := cut?_singleton_eq_some_iff.1 hcut
    obtain ⟨hstart, hend⟩ := trimmed_of_cut? isBlank_bar htrim hcut
    have htarget : '|' ∉ trim target := fun hmem => hbar (trim_subset target hmem)
    rw [readLink_labelled hbar]
    by_cases hlabel : label = []
    · have hnil : trim target = [] ↔ target = [] := trim_eq_nil_iff_of_trimStart hstart
      simp [IsCanonical, IsTrimmed, hlabel, hnil, htarget]
    · have hnil : trim label ≠ [] := fun h => hlabel ((trim_eq_nil_iff_of_trimEnd hend).1 h)
      simp [IsCanonical, IsTrimmed, hnil, htarget, hlabel, List.append_eq_singleton_iff]

theorem facet_of_ofValue (h : ofValue facet value reversed = .ok f) :
    f.facet = facet ∧ f.assumed = f := by
  obtain ⟨-, htaken⟩ := ofValue_eq_ok_iff.1 h
  cases facet with
  | tag =>
    obtain ⟨-, rfl⟩ := htaken
    exact ⟨rfl, rfl⟩
  | link =>
    obtain rfl : readLink value reversed = f := htaken
    unfold readLink
    split <;> exact ⟨rfl, rfl⟩
  | folder | backlink | text =>
    obtain rfl := htaken
    exact ⟨rfl, rfl⟩

/-- What a value is taken for is canonical, but for the link of a lone bar. -/
theorem isCanonical_of_ofValue_iff (htrim : trim value = value)
    (h : ofValue facet value reversed = .ok f) :
    f.IsCanonical ↔ ¬ (facet = .link ∧ value = ['|']) := by
  obtain ⟨hempty, htaken⟩ := ofValue_eq_ok_iff.1 h
  cases facet with
  | tag =>
    obtain ⟨hword, rfl⟩ := htaken
    refine iff_of_true ?_ (by simp)
    unfold marked
    split
    · next hhead => simpa [IsCanonical, hhead] using hword
    · simpa [IsCanonical, isBlank_tagMark] using hword
  | link =>
    have hne : value ≠ [] := fun hnil => by simpa using hempty hnil
    obtain rfl : readLink value reversed = f := htaken
    rw [isCanonical_readLink_iff htrim hne]
    simp
  | folder | backlink =>
    have hne : value ≠ [] := fun hnil => by simpa using hempty hnil
    obtain rfl := htaken
    simp [IsCanonical, IsTrimmed, htrim, hne]
  | text =>
    obtain rfl := htaken
    simp [IsCanonical, IsTrimmed, htrim]

/-- A text may be empty, and so may the target of a link, where a bar comes first. -/
theorem value_eq_empty_of_ofValue_iff (htrim : trim value = value)
    (h : ofValue facet value reversed = .ok f) :
    f.value = "" ↔ facet = .text ∧ value = [] ∨ facet = .link ∧ value.head? = some '|' := by
  obtain ⟨hempty, htaken⟩ := ofValue_eq_ok_iff.1 h
  cases facet with
  | tag =>
    obtain ⟨-, rfl⟩ := htaken
    unfold marked
    split
    · next hhead =>
      have hne : value ≠ [] := fun hnil => by simp [hnil] at hhead
      simp [hne]
    · simp
  | link =>
    have hne : value ≠ [] := fun hnil => by simpa using hempty hnil
    obtain rfl : readLink value reversed = f := htaken
    rw [value_readLink_eq_empty_iff htrim hne]
    simp
  | folder | backlink =>
    have hne : value ≠ [] := fun hnil => by simpa using hempty hnil
    obtain rfl := htaken
    simp [hne]
  | text =>
    obtain rfl := htaken
    simp

end

/-! ## Reading what is written -/

/-- What is lost of a filter that is not canonical is not read again. -/
theorem read_written_iff_assumed (f : Filter) :
    read f.written = .ok f ↔ f.IsCanonical ∧ f.assumed = f := by
  constructor
  · intro hread
    rw [read_written] at hread
    refine ⟨(isCanonical_of_ofValue_iff (trim_trim _) hread).2 ?_, (facet_of_ofValue hread).2⟩
    rintro ⟨hlink, hbar⟩
    rw [hlink, hbar, ofValue_eq_ok_iff] at hread
    obtain ⟨-, hlone : readLink ['|'] f.reversed = f⟩ := hread
    -- the link of a lone bar is written without a bar
    have hbody : f.writtenBody = [] := by
      rw [← hlone]
      rfl
    rw [hbody] at hbar
    cases hbar
  · rintro ⟨hcanonical, hassumed⟩
    rw [read_written_of_isCanonical hcanonical, hassumed]

theorem assumed_eq_self_iff (f : Filter) :
    f.assumed = f ↔ ∀ present label, f.probe = .link present label → present = true := by
  obtain ⟨probe, value, reversed⟩ := f
  cases probe with
  | link present label => cases present <;> simp [assumed]
  | tag | folder | backlink | text => simp [assumed]

/-- A filter is read as it was written exactly when it is canonical and does not say of the target
of a link that it is missing. -/
theorem read_written_iff (f : Filter) :
    read f.written = .ok f ↔
      f.IsCanonical ∧ ∀ present label, f.probe = .link present label → present = true := by
  rw [read_written_iff_assumed, assumed_eq_self_iff]

/-- A tag that is read is one word with the mark of tags. A value that is read is empty only if it
is a text, or the target of a link before whose bar nothing is written. What is read is read again
as it is written, unless it is the link of a lone bar. -/
theorem read_again_iff (input : String) (f : Filter) (h : read input = .ok f) :
    (f.facet = .tag →
      f.value.toList.head? = some tagMark ∧ ∀ c ∈ f.value.toList, isBlank c = false) ∧
    (f.value = "" ↔ f.facet = .text ∧ valuePart input = [] ∨
      f.facet = .link ∧ (valuePart input).head? = some '|') ∧
    (read f.written = .ok f ↔ ¬ (f.facet = .link ∧ valuePart input = ['|'])) := by
  obtain ⟨facet, reversed, hvalue⟩ := exists_ofValue_of_read h
  have htrim : trim (valuePart input) = valuePart input := trim_valuePart input
  have hcanonical := isCanonical_of_ofValue_iff htrim hvalue
  have hempty := value_eq_empty_of_ofValue_iff htrim hvalue
  obtain ⟨rfl, hassumed⟩ := facet_of_ofValue hvalue
  refine ⟨fun htag => ?_, hempty, ?_⟩
  · have hword : f.IsCanonical := hcanonical.2 fun hlink => by simp [htag] at hlink
    obtain ⟨probe, value, reversed⟩ := f
    cases probe with
    | tag => exact hword
    | folder | link | backlink | text => cases htag
  · rw [read_written_iff_assumed, hcanonical]
    exact and_iff_left hassumed

/-- A link without a target is read again if it has a label. -/
theorem read_again_label_alone :
    let f : Filter := ⟨.link true (some "a"), "", true⟩
    read "!link:| a" = .ok f ∧ valuePart "!link:| a" = "| a".toList ∧ f.value = "" ∧
      read f.written = .ok f := by
  intro f
  have hread : read "!link:| a" = .ok f := by rfl
  have hvalue : valuePart "!link:| a" = "| a".toList := by rfl
  obtain ⟨-, hempty, hagain⟩ := read_again_iff "!link:| a" f hread
  rw [hvalue] at hempty hagain
  exact ⟨hread, hvalue, hempty.2 (.inr ⟨rfl, by decide⟩), hagain.2 (by decide)⟩

/-- The link of a lone bar is read, although there is no value, and it is not read again. -/
theorem read_lone_bar :
    read "link:|" = .ok ⟨.link true none, "", false⟩ ∧
      Filter.written ⟨.link true none, "", false⟩ = "link:" ∧
      read "link:" = .error (.emptyValue .link) :=
  ⟨rfl, rfl, rfl⟩

end NoteSearch.Filter

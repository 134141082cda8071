import NoteSearch.Proofs.Markdown.Extracted

/-!
# The places of links

The links of a body are told by its places alone, without a scan. No brackets stand between the
brackets of a link. So what stands there can be read in one way only, and the scan, which goes on
behind a link, passes over no other.
-/
namespace NoteSearch.Markdown
open Text

variable {cs before after rest : List Char} {place place' : Nat} {raw : RawLink} {c : Char}

theorem isTargetChar_iff : isTargetChar c = true ↔ c ∉ ['[', ']', '|', '#'] := by
  simp [isTargetChar, and_assoc]

theorem isHeadingChar_iff : isHeadingChar c = true ↔ c ∉ ['[', ']', '|'] := by
  simp [isHeadingChar, and_assoc]

theorem isLabelChar_iff : isLabelChar c = true ↔ c ∉ ['[', ']'] := by
  simp [isLabelChar]

/-! ## Between the brackets -/

/-- What stands between the brackets of a link. -/
structure Enclosed where
  target : List Char
  heading : Option (List Char)
  label : Option (List Char)
  deriving Repr, DecidableEq

/-- A part behind its mark, if there is one. -/
def marked (mark : Char) (part : Option (List Char)) : List Char := part.elim [] (mark :: ·)

theorem marked_inj {mark : Char} {part part' : Option (List Char)}
    (h : marked mark part = marked mark part') : part = part' := by
  cases part <;> cases part' <;> simp_all [marked]

theorem mem_marked {mark : Char} {part : Option (List Char)} (h : c ∈ marked mark part) :
    c = mark ∨ ∃ chars ∈ part, c ∈ chars := by
  cases part with
  | none => simp [marked] at h
  | some chars => simpa [marked] using h

namespace Enclosed

/-- The target, the heading behind a number sign and the label behind a vertical bar. -/
def text (e : Enclosed) : List Char := e.target ++ (marked '#' e.heading ++ marked '|' e.label)

/-- The whole link. -/
def written (e : Enclosed) : List Char := '[' :: '[' :: (e.text ++ [']', ']'])

/-- Nothing that ends a part stands in it, and only the heading may be empty. -/
structure IsSound (e : Enclosed) : Prop where
  target_ne : e.target ≠ []
  target_chars : ∀ c ∈ e.target, c ∉ ['[', ']', '|', '#']
  heading_chars : ∀ heading ∈ e.heading, ∀ c ∈ heading, c ∉ ['[', ']', '|']
  label_ne : ∀ label ∈ e.label, label ≠ []
  label_chars : ∀ label ∈ e.label, ∀ c ∈ label, c ∉ ['[', ']']

/-- There are no brackets inside. -/
theorem IsSound.not_bracket {e : Enclosed} (h : e.IsSound) (hc : c ∈ e.text) :
    c ∉ ['[', ']'] := by
  rw [text, List.mem_append, List.mem_append] at hc
  obtain htarget | hheading | hlabel := hc
  · exact fun hbracket => h.target_chars c htarget (List.subset_append_left _ ['|', '#'] hbracket)
  · obtain rfl | ⟨heading, hmem, hc⟩ := mem_marked hheading
    · decide
    · exact fun hbracket =>
        h.heading_chars heading hmem c hc (List.subset_append_left _ ['|'] hbracket)
  · obtain rfl | ⟨label, hmem, hc⟩ := mem_marked hlabel
    · decide
    · exact h.label_chars label hmem c hc

end Enclosed

/-! ## Reading a link -/

theorem skipHeading_marked {heading : Option (List Char)}
    (hchars : ∀ chars ∈ heading, ∀ c ∈ chars, isHeadingChar c = true)
    (hrest : ∀ c ∈ rest.head?, isHeadingChar c = false) :
    skipHeading (marked '#' heading ++ rest) = rest := by
  cases heading with
  | none =>
    change skipHeading rest = rest
    unfold skipHeading
    split
    · exact absurd (hrest '#' rfl) (by decide)
    · rfl
  | some chars => exact dropWhile_run (hchars chars rfl) hrest

/-- What is skipped is a heading. -/
theorem exists_heading (cs : List Char) :
    ∃ heading, cs = marked '#' heading ++ skipHeading cs ∧
      ∀ chars ∈ heading, ∀ c ∈ chars, isHeadingChar c = true := by
  unfold skipHeading
  split
  · next rest =>
    refine ⟨some (rest.takeWhile isHeadingChar), ?_, ?_⟩
    · simp [marked]
    · intro chars hchars c hc
      obtain rfl := Option.mem_some_iff.1 hchars
      exact List.mem_takeWhile_imp hc
  · exact ⟨none, rfl, by simp⟩

theorem readLabel_marked {label : Option (List Char)} (hne : ∀ chars ∈ label, chars ≠ [])
    (hchars : ∀ chars ∈ label, ∀ c ∈ chars, isLabelChar c = true)
    (hrest : ∀ c ∈ rest.head?, isLabelChar c = false) :
    readLabel (marked '|' label ++ rest) = (label, rest) := by
  cases label with
  | none =>
    change readLabel rest = (none, rest)
    unfold readLabel
    split
    · exact absurd (hrest '|' rfl) (by decide)
    · rfl
  | some chars =>
    have htake := takeWhile_run (hchars chars rfl) hrest
    have hdrop := dropWhile_run (hchars chars rfl) hrest
    simp [marked, readLabel, htake, hdrop, hne chars rfl]

/-- What is read is a label, if there is one. -/
theorem of_readLabel_eq {cs : List Char} {label : Option (List Char)}
    (h : readLabel cs = (label, rest)) :
    cs = marked '|' label ++ rest ∧
      ∀ chars ∈ label, chars ≠ [] ∧ ∀ c ∈ chars, isLabelChar c = true := by
  unfold readLabel at h
  split at h
  · next behind =>
    split at h
    · obtain ⟨rfl, rfl⟩ := Prod.mk.inj h
      exact ⟨rfl, by simp⟩
    · next hne =>
      obtain ⟨rfl, rfl⟩ := Prod.mk.inj h
      refine ⟨by simp [marked], fun chars hchars => ?_⟩
      obtain rfl := Option.mem_some_iff.1 hchars
      exact ⟨by simpa using hne, fun c hc => List.mem_takeWhile_imp hc⟩
  · obtain ⟨rfl, rfl⟩ := Prod.mk.inj h
    exact ⟨rfl, by simp⟩

/-- The text behind a part begins with the mark of the next part, or the part is not there. -/
theorem mem_head?_marked {mark : Char} {part : Option (List Char)}
    (h : c ∈ (marked mark part ++ rest).head?) : c = mark ∨ c ∈ rest.head? := by
  cases part with
  | none => exact .inr h
  | some chars => exact .inl (Option.mem_some_iff.1 h).symm

theorem linkAt?_written {e : Enclosed} (h : e.IsSound) (rest : List Char) :
    linkAt? (e.written ++ rest) = some (e.target, e.label, rest) := by
  have hwritten : e.written ++ rest = ['[', '['] ++
      (e.target ++ (marked '#' e.heading ++ (marked '|' e.label ++ ([']', ']'] ++ rest)))) := by
    simp [Enclosed.written, Enclosed.text]
  have htarget : ∀ c ∈ e.target, isTargetChar c = true :=
    fun c hc => isTargetChar_iff.2 (h.target_chars c hc)
  have hbehind : ∀ c ∈ (marked '#' e.heading ++
      (marked '|' e.label ++ ([']', ']'] ++ rest))).head?, isTargetChar c = false := by
    intro c hc
    obtain rfl | hc := mem_head?_marked hc
    · rfl
    · obtain rfl | hc := mem_head?_marked hc
      · rfl
      · obtain rfl := Option.mem_some_iff.1 hc
        rfl
  have hlabel : readLabel (marked '|' e.label ++ ([']', ']'] ++ rest)) =
      (e.label, [']', ']'] ++ rest) := by
    refine readLabel_marked h.label_ne (fun chars hchars c hc => ?_) fun c hc => ?_
    · exact isLabelChar_iff.2 (h.label_chars chars hchars c hc)
    · obtain rfl := Option.mem_some_iff.1 hc
      rfl
  have hheading : skipHeading (marked '#' e.heading ++
      (marked '|' e.label ++ ([']', ']'] ++ rest))) =
        marked '|' e.label ++ ([']', ']'] ++ rest) := by
    refine skipHeading_marked (fun chars hchars c hc => ?_) fun c hc => ?_
    · exact isHeadingChar_iff.2 (h.heading_chars chars hchars c hc)
    · obtain rfl | hc := mem_head?_marked hc
      · rfl
      · obtain rfl := Option.mem_some_iff.1 hc
        rfl
  rw [hwritten, linkAt?, after?_append]
  simp only [Option.bind_eq_bind, Option.bind_some, takeWhile_run htarget hbehind,
    dropWhile_run htarget hbehind, hheading, hlabel, after?_append]
  simp [h.target_ne]

/-- A text starts with a link if it starts with one as it is written. -/
theorem linkAt?_eq_some_iff {target : List Char} {label : Option (List Char)} :
    linkAt? cs = some (target, label, rest) ↔
      ∃ e : Enclosed, e.IsSound ∧ e.target = target ∧ e.label = label ∧
        cs = e.written ++ rest := by
  constructor
  · intro h
    obtain ⟨opened, hopened, h⟩ := Option.bind_eq_some_iff.1 h
    dsimp only at h
    split at h
    · cases h
    · next hne =>
      obtain ⟨heading, hheading, hheadingChars⟩ :=
        exists_heading (opened.dropWhile isTargetChar)
      cases hread : readLabel (skipHeading (opened.dropWhile isTargetChar)) with
      | mk label' behind =>
      rw [hread] at h
      obtain ⟨rest', hclosed, h⟩ := Option.bind_eq_some_iff.1 h
      obtain ⟨rfl, rfl, rfl⟩ : _ ∧ _ ∧ _ := by simpa using h
      have hclosed : behind = [']', ']'] ++ rest' := after?_eq_some_iff.1 hclosed
      obtain ⟨hlabel, hlabelChars⟩ := of_readLabel_eq hread
      refine ⟨⟨_, heading, label'⟩, ⟨by simpa using hne, ?_, ?_, ?_, ?_⟩, rfl, rfl, ?_⟩
      · exact fun c hc => isTargetChar_iff.1 (List.mem_takeWhile_imp hc)
      · exact fun chars hchars c hc => isHeadingChar_iff.1 (hheadingChars chars hchars c hc)
      · exact fun chars hchars => (hlabelChars chars hchars).1
      · exact fun chars hchars c hc => isLabelChar_iff.1 ((hlabelChars chars hchars).2 c hc)
      · calc cs = ['[', '['] ++ opened := after?_eq_some_iff.1 hopened
          _ = ['[', '['] ++ (opened.takeWhile isTargetChar ++ opened.dropWhile isTargetChar) := by
            rw [List.takeWhile_append_dropWhile]
          _ = ['[', '['] ++ (opened.takeWhile isTargetChar ++
                (marked '#' heading ++ (marked '|' label' ++ ([']', ']'] ++ rest')))) := by
            rw [hheading, hlabel, hclosed]
          _ = _ := by simp [Enclosed.written, Enclosed.text]
  · rintro ⟨e, he, rfl, rfl, rfl⟩
    exact linkAt?_written he rest

/-! ## Places -/

/-- A link stands at the place of the text. -/
inductive LinkAt (text : List Char) : Nat → Enclosed → Prop
  | intro {before after : List Char} {e : Enclosed} (htext : text = before ++ e.written ++ after)
    (hsound : e.IsSound) : LinkAt text before.length e

variable {e e' : Enclosed}

theorem linkAt_length_iff :
    LinkAt (before ++ cs) before.length e ↔ e.IsSound ∧ ∃ after, cs = e.written ++ after := by
  constructor
  · generalize hplace : before.length = place
    rintro ⟨htext, hsound⟩
    rw [List.append_assoc] at htext
    obtain ⟨rfl, rfl⟩ := List.append_inj htext hplace
    exact ⟨hsound, _, rfl⟩
  · rintro ⟨hsound, after, rfl⟩
    exact .intro (List.append_assoc ..).symm hsound

/-- A link and what follows it can be read in one way. -/
theorem written_append_inj (h : e.IsSound) (h' : e'.IsSound)
    (heq : e.written ++ after = e'.written ++ rest) : e = e' := by
  have hread := linkAt?_written h after
  rw [heq, linkAt?_written h' rest] at hread
  obtain ⟨htarget, hlabel, rfl⟩ : e'.target = e.target ∧ e'.label = e.label ∧ rest = after := by
    simpa using hread
  obtain ⟨target, heading, label⟩ := e
  obtain ⟨_, heading', _⟩ := e'
  obtain rfl := htarget
  obtain rfl := hlabel
  have hwritten := List.append_cancel_right heq
  simp [Enclosed.written, Enclosed.text] at hwritten
  rw [marked_inj hwritten]

theorem LinkAt.eq (h : LinkAt cs place e) (h' : LinkAt cs place e') : e = e' := by
  obtain ⟨htext, hsound⟩ := h
  rw [htext, List.append_assoc] at h'
  obtain ⟨hsound', rest, heq⟩ := linkAt_length_iff.1 h'
  exact written_append_inj hsound hsound' heq

/-- A link starts with two opening brackets. -/
theorem LinkAt.getElem? (h : LinkAt cs place e) :
    cs[place]? = some '[' ∧ cs[place + 1]? = some '[' := by
  obtain ⟨rfl, -⟩ := h
  simp [Enclosed.written]

/-- No other opening bracket is in it. -/
theorem LinkAt.getElem?_ne (h : LinkAt cs place e) {i : Nat} (hi : 2 ≤ i)
    (hlt : i < e.written.length) : cs[place + i]? ≠ some '[' := by
  obtain ⟨rfl, hsound⟩ := h
  obtain ⟨i, rfl⟩ := Nat.exists_eq_add_of_le' hi
  rw [List.append_assoc, List.getElem?_append_right (Nat.le_add_right ..), Nat.add_sub_cancel_left,
    List.getElem?_append_left hlt, Enclosed.written, List.getElem?_cons_succ,
    List.getElem?_cons_succ]
  intro hbracket
  obtain htext | hclosing := List.mem_append.1 (List.mem_of_getElem? hbracket)
  · exact hsound.not_bracket htext (by decide)
  · simp at hclosing

/-- No link starts inside another: its first two brackets would not both be outside. -/
theorem LinkAt.length_le_of_lt (h : LinkAt cs place e) (h' : LinkAt cs place' e')
    (hlt : place < place') : place + e.written.length ≤ place' := by
  obtain ⟨hfirst, hsecond⟩ := h'.getElem?
  by_contra hinside
  obtain ⟨i, rfl⟩ := Nat.exists_eq_add_of_lt hlt
  have hlength : e.written.length = e.text.length + 4 := by simp [Enclosed.written]
  by_cases hlast : i + 2 < e.written.length
  · exact h.getElem?_ne (by omega) hlast hsecond
  · exact h.getElem?_ne (i := i + 1) (by omega) (by omega) hfirst

theorem LinkAt.lt_length (h : LinkAt cs place e) : place < cs.length :=
  (List.getElem?_eq_some_iff.1 h.getElem?.1).1

/-- The scan gives the links of all places behind what has been read, in their order. -/
theorem exists_placed_links {fuel : Nat} (hfuel : cs.length ≤ fuel) :
    ∃ placed : List (Nat × Enclosed),
      placed.map (fun x => (x.2.target, x.2.label)) = linksFrom fuel cs ∧
      ListsFrom (LinkAt (before ++ cs)) before.length placed := by
  have hend : ∀ before, ListsFrom (LinkAt (before ++ [])) before.length [] := by
    refine fun before => .nil fun place e hlink => ?_
    simpa using hlink.lt_length
  fun_induction linksFrom fuel cs generalizing before with
  | case1 cs =>
    obtain rfl := List.eq_nil_of_length_eq_zero (Nat.le_zero.1 hfuel)
    exact ⟨[], rfl, hend before⟩
  | case2 => exact ⟨[], rfl, hend before⟩
  | case3 fuel c cs target label rest hlink ih =>
    obtain ⟨e, hsound, rfl, rfl, htext⟩ := linkAt?_eq_some_iff.1 hlink
    have hrest : rest.length ≤ fuel := by
      have hlength := congrArg List.length htext
      simp only [List.length_cons, List.length_append, Enclosed.written] at hlength hfuel
      omega
    obtain ⟨placed, hplaced, hlists⟩ := @ih (before ++ e.written) hrest
    rw [List.append_assoc, ← htext, List.length_append] at hlists
    have hhere : LinkAt (before ++ c :: cs) before.length e :=
      linkAt_length_iff.2 ⟨hsound, rest, htext⟩
    refine ⟨(before.length, e) :: placed, by rw [List.map_cons, hplaced],
      hlists.cons ?_ hhere ?_ ?_⟩
    · exact Nat.lt_add_of_pos_right (by simp [Enclosed.written])
    · exact fun e' hlink' => hlink'.eq hhere
    · exact fun place e' hlink' => hhere.length_le_of_lt hlink'
  | case4 fuel c cs hlink ih =>
    have htext : before ++ c :: cs = before ++ [c] ++ cs := by simp
    obtain ⟨placed, hplaced, hlists⟩ := @ih (before ++ [c]) (Nat.le_of_succ_le_succ hfuel)
    rw [← htext, List.length_append, List.length_singleton] at hlists
    refine ⟨placed, hplaced, hlists.skip fun e hlink' => ?_⟩
    obtain ⟨hsound, after, hwritten⟩ := linkAt_length_iff.1 hlink'
    rw [hwritten, linkAt?_written hsound] at hlink
    cases hlink

/-! ## Links -/

theorem trim_ne_nil_iff {chars : List Char} : trim chars ≠ [] ↔ ∃ c ∈ chars, isBlank c = false := by
  simp [trim_eq_nil_iff]

/-- The link that is read from what stands between brackets: the target is trimmed, and so is the
label if there is one. Blank labels do not count. -/
structure Enclosed.Gives (e : Enclosed) (raw : RawLink) : Prop where
  not_blank : ∃ c ∈ e.target, isBlank c = false
  target : raw.target = String.ofList (trim e.target)
  label : ∀ label, raw.label = some label ↔ ∃ chars ∈ e.label,
    (∃ c ∈ chars, isBlank c = false) ∧ label = String.ofList (trim chars)

theorem Enclosed.gives_iff : e.Gives raw ↔ RawLink.ofParts? e.target e.label = some raw := by
  simp only [ofParts?_eq_some_iff, trim_ne_nil_iff]
  constructor
  · rintro ⟨hblank, htarget, hlabel⟩
    exact ⟨hblank, htarget, hlabel⟩
  · rintro ⟨hblank, htarget, hlabel⟩
    exact ⟨hblank, htarget, hlabel⟩

/-- The links of a body are those of its places in their order, one for each place at which a link
stands whose target is not blank. A place can be read in one way, no two links overlap, and the
targets that are read are trimmed, not empty and free of what ends a target. -/
theorem links_at_places (body : String) :
    (∃ placed : List (Nat × RawLink), links body = placed.map (·.2) ∧
      placed.Pairwise (fun x y => x.1 < y.1) ∧
      ∀ place raw, (place, raw) ∈ placed ↔ ∃ e, LinkAt body.toList place e ∧ e.Gives raw) ∧
    (∀ place e e', LinkAt body.toList place e → LinkAt body.toList place e' → e = e') ∧
    (∀ place e place' e', LinkAt body.toList place e → LinkAt body.toList place' e' →
      place < place' → place + e.written.length ≤ place') ∧
    ∀ raw ∈ links body, raw.target ≠ "" ∧ IsTrimmed raw.target ∧
      ∀ c ∈ raw.target.toList, c ∉ ['[', ']', '|', '#'] := by
  refine ⟨?_, fun place e e' => LinkAt.eq, fun place e place' e' => LinkAt.length_le_of_lt,
    fun raw hraw => ?_⟩
  · obtain ⟨placed, hplaced, hincreasing, hmem⟩ :=
      @exists_placed_links body.toList [] _ (Nat.le_refl _)
    refine ⟨placed.filterMap fun x =>
      (RawLink.ofParts? x.2.target x.2.label).map fun raw => (x.1, raw), ?_, ?_, ?_⟩
    · rw [links, ← hplaced, List.filterMap_map, List.map_filterMap]
      simp [Function.comp_def]
    · refine List.pairwise_filterMap.2 (hincreasing.imp fun hlt y hy y' hy' => ?_)
      obtain ⟨raw, -, rfl⟩ := Option.map_eq_some_iff.1 hy
      obtain ⟨raw', -, rfl⟩ := Option.map_eq_some_iff.1 hy'
      exact hlt
    · intro place raw
      rw [List.mem_filterMap]
      constructor
      · rintro ⟨⟨place, e⟩, hx, hgives⟩
        obtain ⟨raw, hraw, heq⟩ := Option.map_eq_some_iff.1 hgives
        obtain ⟨rfl, rfl⟩ := Prod.mk.inj heq
        exact ⟨e, ((hmem place e).1 hx).2, Enclosed.gives_iff.2 hraw⟩
      · rintro ⟨e, hlink, hgives⟩
        refine ⟨(place, e), (hmem place e).2 ⟨Nat.zero_le _, hlink⟩, ?_⟩
        rw [Enclosed.gives_iff.1 hgives, Option.map_some]
  · have hplain := isPlain_of_mem_links hraw
    exact ⟨hplain.target_ne, hplain.target_trimmed,
      fun c hc => isTargetChar_iff.1 (hplain.target_chars c hc)⟩

/-- A link may follow a bracket, and another link follow it directly. -/
theorem links_at_places_side_by_side :
    let body := "[[[a#h| A ]][[ ]]"
    let e : Enclosed := ⟨['a'], some ['h'], some " A ".toList⟩
    let e' : Enclosed := ⟨[' '], none, none⟩
    LinkAt body.toList 1 e ∧ LinkAt body.toList 12 e' ∧ 1 + e.written.length ≤ 12 ∧
      e.Gives ⟨"a", some "A"⟩ ∧ links body = [⟨"a", some "A"⟩] := by
  intro body e e'
  have h : LinkAt body.toList 1 e :=
    @LinkAt.intro _ ['['] "[[ ]]".toList e (by decide)
      ⟨by simp [e], by simp [e], by simp [e], by simp [e], by simp [e]⟩
  have h' : LinkAt body.toList 12 e' :=
    @LinkAt.intro _ "[[[a#h| A ]]".toList [] e' (by decide)
      ⟨by simp [e'], by simp [e'], by simp [e'], by simp [e'], by simp [e']⟩
  obtain ⟨-, -, hapart, -⟩ := links_at_places body
  exact ⟨h, h', hapart 1 e 12 e' h h' (by decide), Enclosed.gives_iff.2 (by decide),
    by decide +kernel⟩

end NoteSearch.Markdown

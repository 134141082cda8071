import NoteSearch.Proofs.Markdown.Extracted

/-!
# The places of tags

The tags of a body are told by its places alone, without a scan: by the number signs that stand
where a tag may start, each with the longest run of tag characters behind it. The scan goes on
behind a run, so it passes over what is inside; no number sign is, and what may precede a tag is not
a tag character, so it passes over no place.
-/
namespace NoteSearch.Markdown
open Text

variable {text before run word after : List Char} {place : Nat} {tag : String} {c : Char}

/-! ## Repetitions -/

section
variable {α : Type} [BEq α] [LawfulBEq α]

theorem nodup_firsts (l : List α) : (firsts l).Nodup := by
  induction l with
  | nil => exact List.nodup_nil
  | cons a l ih => exact List.nodup_cons.2 ⟨by simp, ih.filter _⟩

/-- Of what is listed by increasing places, the first of equal elements come in the order of their
first places. -/
theorem pairwise_firsts_map {placed : List (Nat × α)}
    (h : placed.Pairwise fun x y => x.1 < y.1) :
    (firsts (placed.map (·.2))).Pairwise fun a b =>
      ∃ place, (place, a) ∈ placed ∧ ∀ place', (place', b) ∈ placed → place < place' := by
  induction placed with
  | nil => exact .nil
  | cons x placed ih =>
    obtain ⟨hx, hplaced⟩ := List.pairwise_cons.1 h
    refine List.pairwise_cons.2 ⟨fun b hb => ?_, ?_⟩
    · refine ⟨x.1, List.mem_cons_self, fun place' hmem => ?_⟩
      obtain rfl | hmem := List.mem_cons.1 hmem
      · simp at hb
      · exact hx _ hmem
    · refine ((ih hplaced).filter _).imp_of_mem fun _ hb => ?_
      rintro ⟨place, hplace, hfirst⟩
      refine ⟨place, List.mem_cons_of_mem _ hplace, fun place' hmem => ?_⟩
      obtain rfl | hmem := List.mem_cons.1 hmem
      · simp at hb
      · exact hfirst place' hmem

end

theorem nodup_tags (body : String) : (tags body).Nodup := nodup_firsts _

/-! ## Runs -/

theorem not_isTagChar_mark : isTagChar '#' = false := by decide +kernel

theorem not_isTagChar_of_precedesTag (h : precedesTag c = true) : isTagChar c = false := by
  cases htag : isTagChar c with
  | false => rfl
  | true =>
    simp only [precedesTag, not_blank_of_isTagChar htag, Bool.false_or, Bool.or_eq_true,
      beq_iff_eq] at h
    obtain ((rfl | rfl) | rfl) | rfl := h <;> exact absurd htag (by decide +kernel)

/-- A tag may start behind the text: nothing is in it, or its last character may precede a tag. -/
def IsFree (before : List Char) : Prop := ∀ c ∈ before.getLast?, precedesTag c = true

theorem isFree_concat_iff : IsFree (before ++ [c]) ↔ precedesTag c = true := by
  simp [IsFree]

/-- No tag may start directly behind tag characters. -/
theorem not_isFree_append_run (hne : run ≠ []) (hrun : ∀ c ∈ run, isTagChar c = true) :
    ¬ IsFree (before ++ run) := by
  rw [← List.dropLast_append_getLast hne, ← List.append_assoc, isFree_concat_iff]
  exact fun hprecedes => Bool.false_ne_true
    ((not_isTagChar_of_precedesTag hprecedes).symm.trans (hrun _ (List.getLast_mem hne)))

/-- A number sign stands at the place of the text, where a tag may start, and the run is the longest
one of tag characters behind it. -/
inductive RunAt (text : List Char) : Nat → List Char → Prop
  | intro {before run after : List Char} (htext : text = before ++ '#' :: (run ++ after))
    (hbefore : IsFree before) (hne : run ≠ []) (hrun : ∀ c ∈ run, isTagChar c = true)
    (hafter : ∀ c ∈ after.head?, isTagChar c = false) : RunAt text before.length run

theorem RunAt.getElem? (h : RunAt text place run) : text[place]? = some '#' := by
  obtain ⟨rfl, -, -, -, -⟩ := h
  simp

/-- At a given place there is a run if a number sign stands there, a tag may start and a tag
character follows. -/
theorem runAt_length_iff {rest : List Char} : RunAt (before ++ c :: rest) before.length run ↔
    c = '#' ∧ IsFree before ∧ rest.takeWhile isTagChar = run ∧ run ≠ [] := by
  constructor
  · generalize hplace : before.length = place
    rintro ⟨htext, hbefore, hne, hrun, hafter⟩
    obtain ⟨rfl, hrest⟩ := List.append_inj htext hplace
    obtain ⟨rfl, rfl⟩ := List.cons.inj hrest
    exact ⟨rfl, hbefore, takeWhile_run hrun hafter, hne⟩
  · rintro ⟨rfl, hbefore, rfl, hne⟩
    have htext : before ++ '#' :: rest =
        before ++ '#' :: (rest.takeWhile isTagChar ++ rest.dropWhile isTagChar) := by
      rw [List.takeWhile_append_dropWhile]
    refine .intro htext hbefore hne (fun c hc => List.mem_takeWhile_imp hc) fun c hc => ?_
    rw [← List.find?_not_eq_head?_dropWhile] at hc
    simpa using List.find?_some hc

/-- No run starts inside another. -/
theorem RunAt.length_le_of_lt {other : List Char} (hrun : ∀ c ∈ run, isTagChar c = true)
    (h : RunAt (before ++ '#' :: run ++ after) place other) (hlt : before.length < place) :
    (before ++ '#' :: run).length ≤ place := by
  by_contra hinside
  have hmark := h.getElem?
  rw [List.getElem?_append_left (by omega), List.getElem?_append_right (by omega),
    List.getElem?_cons, if_neg (by omega)] at hmark
  exact Bool.false_ne_true (not_isTagChar_mark.symm.trans (hrun _ (List.mem_of_getElem? hmark)))

/-- The scan gives the runs of all places behind what has been read, in their order. -/
theorem exists_placed {free : Bool} (cs : List Char) (hfree : free = true ↔ IsFree before) :
    ∃ placed : List (Nat × List Char), placed.map (·.2) = tagRuns free cs ∧
      ListsFrom (RunAt (before ++ cs)) before.length placed := by
  fun_induction tagRuns free cs generalizing before with
  | case1 free =>
    refine ⟨[], rfl, .nil fun place run hrun => ?_⟩
    simpa using (List.getElem?_eq_some_iff.1 hrun.getElem?).1
  | case2 free c rest hstart ih =>
    obtain ⟨⟨rfl, rfl⟩, hne⟩ : (free = true ∧ c = '#') ∧ rest.takeWhile isTagChar ≠ [] := by
      simpa using hstart
    have htext : before ++ '#' :: rest =
        before ++ '#' :: rest.takeWhile isTagChar ++ rest.dropWhile isTagChar := by
      rw [List.append_assoc, List.cons_append, List.takeWhile_append_dropWhile]
    have hrun : ∀ c ∈ rest.takeWhile isTagChar, isTagChar c = true :=
      fun c hc => List.mem_takeWhile_imp hc
    have hend : ¬ IsFree (before ++ ['#'] ++ rest.takeWhile isTagChar) :=
      not_isFree_append_run hne hrun
    rw [List.append_assoc, List.singleton_append] at hend
    obtain ⟨placed, hplaced, hlists⟩ := ih (iff_of_false Bool.false_ne_true hend)
    rw [← htext] at hlists
    refine ⟨(before.length, rest.takeWhile isTagChar) :: placed, by rw [List.map_cons, hplaced],
      hlists.cons ?_ (runAt_length_iff.2 ⟨rfl, hfree.1 rfl, rfl, hne⟩) ?_ ?_⟩
    · simp
    · exact fun run hrunAt => (runAt_length_iff.1 hrunAt).2.2.1.symm
    · intro place run hrunAt
      rw [htext] at hrunAt
      exact hrunAt.length_le_of_lt hrun
  | case3 free c rest hstart ih =>
    have htext : before ++ c :: rest = before ++ [c] ++ rest := by simp
    have hnext : precedesTag c = true ↔ IsFree (before ++ [c]) := isFree_concat_iff.symm
    obtain ⟨placed, hplaced, hlists⟩ := ih hnext
    rw [← htext, List.length_append, List.length_singleton] at hlists
    refine ⟨placed, hplaced, hlists.skip fun run hrunAt => ?_⟩
    obtain ⟨rfl, hbefore, rfl, hne⟩ := runAt_length_iff.1 hrunAt
    simp [hfree.2 hbefore, hne] at hstart

/-! ## Tags -/

theorem withoutSlashes_append (hlast : ∀ c ∈ word.getLast?, c ≠ '/') (slashes : Nat) :
    withoutSlashes (word ++ List.replicate slashes '/') = word := by
  change List.rdropWhile (· == '/') (word ++ List.replicate slashes '/') = word
  induction slashes with
  | zero =>
    rw [List.replicate_zero, List.append_nil, List.rdropWhile_eq_self_iff]
    intro hne
    simpa using hlast _ (List.getLast?_eq_some_getLast hne)
  | succ slashes ih =>
    rw [List.replicate_succ', ← List.append_assoc, List.rdropWhile_concat_pos _ _ _ (by simp), ih]

theorem not_slash_of_getLast?_withoutSlashes (run : List Char) :
    ∀ c ∈ (withoutSlashes run).getLast?, c ≠ '/' := by
  intro c hc
  obtain ⟨hne, rfl⟩ := List.mem_getLast?_eq_getLast hc
  exact fun hslash => List.rdropWhile_last_not (· == '/') run hne (beq_iff_eq.2 hslash)

theorem isWorded_iff : isWorded word = true ↔ ∃ c ∈ word, ¬ ('0' ≤ c ∧ c ≤ '9') := by
  simp only [isWorded, List.any_eq_true, Bool.not_eq_true', ← Bool.not_eq_true, Bool.and_eq_true,
    decide_eq_true_iff]

/-- The word of a tag: tag characters, of which the last is no slash and not all are ASCII
digits. -/
structure IsWord (word : List Char) : Prop where
  chars : ∀ c ∈ word, isTagChar c = true
  last : ∀ c ∈ word.getLast?, c ≠ '/'
  worded : ∃ c ∈ word, ¬ ('0' ≤ c ∧ c ≤ '9')

/-- A tag stands at the place of the text. Its number sign is at the very start or directly behind a
character that may precede a tag, and the longest run of tag characters behind that is the word of
the tag and slashes. -/
inductive TagAt (text : List Char) : Nat → String → Prop
  | intro {before word after : List Char} {slashes : Nat}
    (htext : text = before ++ '#' :: (word ++ List.replicate slashes '/' ++ after))
    (hbefore : IsFree before) (hword : IsWord word)
    (hafter : ∀ c ∈ after.head?, isTagChar c = false) :
    TagAt text before.length (String.ofList ('#' :: word))

theorem tagAt_iff : TagAt text place tag ↔ ∃ run, RunAt text place run ∧
    isWorded (withoutSlashes run) = true ∧ String.ofList ('#' :: withoutSlashes run) = tag := by
  constructor
  · rintro @⟨before, word, after, slashes, htext, hbefore, hword, hafter⟩
    have hbare := withoutSlashes_append hword.last slashes
    refine ⟨word ++ List.replicate slashes '/', .intro htext hbefore ?_ ?_ hafter,
      by rw [hbare, isWorded_iff]; exact hword.worded, by rw [hbare]⟩
    · intro hnil
      obtain ⟨c, hc, -⟩ := hword.worded
      simp [(List.append_eq_nil_iff.1 hnil).1] at hc
    · intro c hc
      obtain hc | hc := List.mem_append.1 hc
      · exact hword.chars c hc
      · rw [List.eq_of_mem_replicate hc]
        decide +kernel
  · rintro ⟨run, ⟨htext, hbefore, hne, hrun, hafter⟩, hworded, rfl⟩
    obtain ⟨slashes, hslashes⟩ :
        ∃ slashes, run = withoutSlashes run ++ List.replicate slashes '/' :=
      exists_eq_rdropWhile_append '/' run
    exact .intro (hslashes ▸ htext) hbefore ⟨fun c hc => hrun c (withoutSlashes_subset run hc),
      not_slash_of_getLast?_withoutSlashes run, isWorded_iff.1 hworded⟩ hafter

/-- The tags of a body are those of its places, each where it first stands. -/
theorem exists_placed_tags (body : String) :
    ∃ placed : List (Nat × String), tags body = firsts (placed.map (·.2)) ∧
      placed.Pairwise (fun x y => x.1 < y.1) ∧
      ∀ place tag, (place, tag) ∈ placed ↔ TagAt body.toList place tag := by
  have hstart : true = true ↔ IsFree [] := by simp [IsFree]
  obtain ⟨placed, hruns, hincreasing, hmem⟩ := exists_placed body.toList hstart
  let words := placed.map fun x => (x.1, withoutSlashes x.2)
  refine ⟨(words.filter fun x => isWorded x.2).map fun x => (x.1, String.ofList ('#' :: x.2)),
    ?_, ?_, fun place tag => ?_⟩
  · rw [tags, ← hruns]
    simp [words, List.filter_map, Function.comp_def]
  · have hwords : words.Pairwise fun x y => x.1 < y.1 := List.pairwise_map.2 hincreasing
    exact List.pairwise_map.2 (hwords.filter _)
  · rw [tagAt_iff, List.mem_map]
    constructor
    · rintro ⟨x, hx, heq⟩
      obtain ⟨hx, hworded⟩ := List.mem_filter.1 hx
      obtain ⟨⟨place, run⟩, hrun, rfl⟩ := List.mem_map.1 hx
      obtain ⟨rfl, rfl⟩ := Prod.mk.inj heq
      exact ⟨run, ((hmem place run).1 hrun).2, hworded, rfl⟩
    · rintro ⟨run, hrun, hworded, rfl⟩
      have hplaced := (hmem place run).2 ⟨Nat.zero_le _, hrun⟩
      exact ⟨_, List.mem_filter.2 ⟨List.mem_map_of_mem hplaced, hworded⟩, rfl⟩

/-- Behind a character that may not precede a tag there is none. -/
theorem not_tagAt_succ (hc : precedesTag c = false) :
    ¬ TagAt (before ++ c :: '#' :: after) (before.length + 1) tag := by
  have htext : before ++ c :: '#' :: after = before ++ [c] ++ '#' :: after := by simp
  have hplace : before.length + 1 = (before ++ [c]).length := by simp
  rw [htext, hplace, tagAt_iff]
  rintro ⟨run, hrun, -, -⟩
  have hfree := isFree_concat_iff.1 (runAt_length_iff.1 hrun).2.1
  exact Bool.false_ne_true (hc.symm.trans hfree)

/-- Tags that stand in a row with single separators between them are all there. -/
theorem exists_tagAt_of_row {front back : List Char} {more : List (Char × List Char)}
    (hfront : IsFree front) (hword : IsWord word)
    (hmore : ∀ x ∈ more, precedesTag x.1 = true ∧ IsWord x.2)
    (hback : ∀ c ∈ back.head?, isTagChar c = false) {other : List Char}
    (hother : other ∈ word :: more.map (·.2)) :
    ∃ place, TagAt (front ++ '#' :: word ++ more.flatMap (fun x => x.1 :: '#' :: x.2) ++ back)
      place (String.ofList ('#' :: other)) := by
  induction more generalizing front word with
  | nil =>
    obtain rfl : other = word := by simpa using hother
    have htext : front ++ '#' :: other ++ [] ++ back =
        front ++ '#' :: (other ++ List.replicate 0 '/' ++ back) := by simp
    exact ⟨front.length, .intro htext hfront hword hback⟩
  | cons x more ih =>
    obtain ⟨⟨hseparator, hnext⟩, hmore⟩ := List.forall_mem_cons.1 hmore
    obtain rfl | hother := List.mem_cons.1 hother
    · have htext :
          front ++ '#' :: other ++ (x :: more).flatMap (fun x => x.1 :: '#' :: x.2) ++ back =
            front ++ '#' :: (other ++ List.replicate 0 '/' ++
              (x.1 :: '#' :: x.2 ++ more.flatMap (fun x => x.1 :: '#' :: x.2) ++ back)) := by
        simp
      refine ⟨front.length, .intro htext hfront hword fun c hc => ?_⟩
      obtain rfl : x.1 = c := by simpa using hc
      exact not_isTagChar_of_precedesTag hseparator
    · have hfree : IsFree (front ++ '#' :: word ++ [x.1]) := isFree_concat_iff.2 hseparator
      obtain ⟨place, htag⟩ := ih hfree hnext hmore hother
      exact ⟨place, by simpa using htag⟩

/-- The tags of a body are those of all its places, without repetitions and in the order of their
first places. None starts inside another, in a word or behind another number sign, and of tags
with a single separator between them none is missed. -/
theorem tags_at_places (body : String) :
    (tags body).Nodup ∧
    (∀ tag, tag ∈ tags body ↔ ∃ place, TagAt body.toList place tag) ∧
    ((tags body).Pairwise fun tag tag' => ∃ place, TagAt body.toList place tag ∧
      ∀ place', TagAt body.toList place' tag' → place < place') ∧
    (∀ before c after tag, body.toList = before ++ c :: '#' :: after →
      isTagChar c = true ∨ c = '#' → ¬ TagAt body.toList (before.length + 1) tag) ∧
    ∀ (front word : List Char) (more : List (Char × List Char)) (back : List Char),
      body.toList = front ++ '#' :: word ++ more.flatMap (fun x => x.1 :: '#' :: x.2) ++ back →
      IsFree front → IsWord word → (∀ x ∈ more, precedesTag x.1 = true ∧ IsWord x.2) →
      (∀ c ∈ back.head?, isTagChar c = false) →
      ∀ other ∈ word :: more.map (·.2), String.ofList ('#' :: other) ∈ tags body := by
  obtain ⟨placed, htags, hincreasing, hplaced⟩ := exists_placed_tags body
  have hmem : ∀ tag, tag ∈ tags body ↔ ∃ place, TagAt body.toList place tag := by
    intro tag
    rw [htags, mem_firsts]
    simp [hplaced]
  refine ⟨nodup_tags body, hmem, ?_, ?_, ?_⟩
  · simpa only [htags, hplaced] using pairwise_firsts_map hincreasing
  · rintro before c after tag htext hc
    rw [htext]
    refine not_tagAt_succ ?_
    obtain htag | rfl := hc
    · rw [← Bool.not_eq_true]
      exact fun hprecedes =>
        Bool.false_ne_true ((not_isTagChar_of_precedesTag hprecedes).symm.trans htag)
    · decide
  · intro front word more back htext hfront hword hmore hback other hother
    rw [hmem, htext]
    exact exists_tagAt_of_row hfront hword hmore hback hother

end NoteSearch.Markdown

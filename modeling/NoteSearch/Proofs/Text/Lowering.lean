import Mathlib.Data.List.Infix
import NoteSearch.Text.Blank
import NoteSearch.Text.LowerCase

/-!
# Lower case in parts

The lower case form of a text depends on what stands around it in two places only: at the capital
sigmas that see beyond its ends. What they see there is no more than whether the
nearest character that is not case-ignorable is cased, so a text can be brought to lower case in
parts around any character that is neither.
-/
namespace NoteSearch.Text

variable {before before' text front back after after' : List Char} {c d : Char}

/-! ## What a sigma sees -/

theorem startsCased_cons_of_ignorable (hc : caseIgnorable.has c = true) (text : List Char) :
    startsCased (c :: text) = startsCased text := by
  rw [startsCased, List.dropWhile_cons_of_pos hc, ← startsCased]

theorem startsCased_cons (hc : caseIgnorable.has c = false) (text : List Char) :
    startsCased (c :: text) = cased.has c := by
  rw [startsCased, List.dropWhile_cons_of_neg (by simp [hc])]

/-- Through a text of case-ignorable characters what is behind it is seen. -/
theorem startsCased_append_of_ignorable (htext : ∀ c ∈ text, caseIgnorable.has c = true)
    (after : List Char) : startsCased (text ++ after) = startsCased after := by
  induction text with
  | nil => rfl
  | cons c text ih =>
    obtain ⟨hc, htext⟩ := List.forall_mem_cons.1 htext
    rw [List.cons_append, startsCased_cons_of_ignorable hc, ih htext]

/-- Any other text hides what is behind it. -/
theorem startsCased_append_of_mem (hmem : c ∈ text) (hc : caseIgnorable.has c = false)
    (after : List Char) : startsCased (text ++ after) = startsCased text := by
  induction text with
  | nil => cases hmem
  | cons d text ih =>
    rw [List.cons_append]
    cases hd : caseIgnorable.has d with
    | true =>
      obtain rfl | hmem := List.mem_cons.1 hmem
      · rw [hc] at hd
        cases hd
      · rw [startsCased_cons_of_ignorable hd, startsCased_cons_of_ignorable hd, ih hmem]
    | false => rw [startsCased_cons hd, startsCased_cons hd]

theorem startsCased_of_ignorable (htext : ∀ c ∈ text, caseIgnorable.has c = true) :
    startsCased text = false := by
  simpa [startsCased] using startsCased_append_of_ignorable htext []

theorem startsCased_append_of_startsCased (h : startsCased text = true) (after : List Char) :
    startsCased (text ++ after) = true := by
  by_cases htext : ∀ c ∈ text, caseIgnorable.has c = true
  · rw [startsCased_of_ignorable htext] at h
    cases h
  · obtain ⟨c, hmem, hc⟩ : ∃ c ∈ text, caseIgnorable.has c = false := by simpa using htext
    rw [startsCased_append_of_mem hmem hc, h]

/-- What is seen through a text depends on what is behind it by what is seen there. -/
theorem startsCased_append_congr (h : startsCased after = startsCased after') (text : List Char) :
    startsCased (text ++ after) = startsCased (text ++ after') := by
  by_cases htext : ∀ c ∈ text, caseIgnorable.has c = true
  · rw [startsCased_append_of_ignorable htext, startsCased_append_of_ignorable htext, h]
  · obtain ⟨c, hmem, hc⟩ : ∃ c ∈ text, caseIgnorable.has c = false := by simpa using htext
    rw [startsCased_append_of_mem hmem hc, startsCased_append_of_mem hmem hc]

theorem not_ignorable_sigma : caseIgnorable.has 'Σ' = false := by decide +kernel

theorem startsCased_sigma (text : List Char) : startsCased ('Σ' :: text) = true :=
  (startsCased_cons not_ignorable_sigma text).trans (by decide +kernel)

/-! ## A text between others -/

/-- The lower case form of a text between two others, the one before it in reverse. -/
def lowerBetween (before : List Char) : (text after : List Char) → List Char
  | [], _ => []
  | c :: rest, after =>
    (if c = 'Σ' then [lowerSigma before (rest ++ after)] else lowerChar c) ++
      lowerBetween (c :: before) rest after

theorem lowerBetween_nil (before text : List Char) :
    lowerBetween before text [] = lowerFrom before text := by
  induction text generalizing before with
  | nil => rfl
  | cons c text ih => rw [lowerBetween, lowerFrom, List.append_nil, ih]

theorem lowerBetween_append (before front back after : List Char) :
    lowerBetween before (front ++ back) after =
      lowerBetween before front (back ++ after) ++
        lowerBetween (front.reverse ++ before) back after := by
  induction front generalizing before with
  | nil => rfl
  | cons c front ih =>
    simp only [List.cons_append, lowerBetween, ih, List.append_assoc, List.reverse_cons,
      List.nil_append]

/-- Of what stands around a text only what is seen first matters. -/
theorem lowerBetween_congr (hbefore : startsCased before = startsCased before')
    (hafter : startsCased after = startsCased after') (text : List Char) :
    lowerBetween before text after = lowerBetween before' text after' := by
  induction text generalizing before before' with
  | nil => rfl
  | cons c text ih =>
    have hsigma : lowerSigma before (text ++ after) = lowerSigma before' (text ++ after') := by
      rw [lowerSigma, lowerSigma, hbefore, startsCased_append_congr hafter]
    have hmore : startsCased (c :: before) = startsCased (c :: before') :=
      startsCased_append_congr hbefore [c]
    rw [lowerBetween, lowerBetween, hsigma, ih hmore]

/-- Without a capital sigma nothing around a text matters. -/
theorem lowerBetween_of_notMem (hsigma : 'Σ' ∉ text) (before after : List Char) :
    lowerBetween before text after = text.flatMap lowerChar := by
  induction text generalizing before with
  | nil => rfl
  | cons c text ih =>
    obtain ⟨hc, htext⟩ := List.ne_and_not_mem_of_not_mem_cons hsigma
    rw [lowerBetween, if_neg (Ne.symm hc), ih htext, List.flatMap_cons]

theorem lower_eq (text : List Char) : lower text = lowerBetween [] text [] :=
  (lowerBetween_nil [] text).symm

/-- A text in lower case is made of what becomes of its parts between the others. -/
theorem lower_append_append (front text back : List Char) :
    lower (front ++ text ++ back) =
      lowerBetween [] front (text ++ back) ++ lowerBetween front.reverse text back ++
        lowerBetween (text.reverse ++ front.reverse) back [] := by
  rw [lower_eq, lowerBetween_append, lowerBetween_append, List.append_nil]
  simp

/-! ## Texts that are the same between others -/

/-- Every capital sigma of the text is between the others what it is alone. -/
def KeepsSigmas (before text after : List Char) : Prop :=
  ∀ front back, text = front ++ 'Σ' :: back →
    lowerSigma (front.reverse ++ before) (back ++ after) = lowerSigma front.reverse back

theorem keepsSigmas_of_not_startsCased (hbefore : startsCased before = false)
    (hafter : startsCased after = false) (text : List Char) : KeepsSigmas before text after := by
  intro front back _
  have hfront : startsCased (front.reverse ++ before) = startsCased (front.reverse ++ []) :=
    startsCased_append_congr hbefore _
  have hback : startsCased (back ++ after) = startsCased (back ++ []) :=
    startsCased_append_congr hafter back
  rw [lowerSigma, hfront, hback, List.append_nil, List.append_nil, ← lowerSigma]

theorem KeepsSigmas.lowerBetween_eq (h : KeepsSigmas before text after) :
    lowerBetween before text after = lower text := by
  have hrest : ∀ rest front, text = front ++ rest →
      lowerBetween (front.reverse ++ before) rest after = lowerBetween front.reverse rest [] := by
    intro rest
    induction rest with
    | nil => exact fun _ _ => rfl
    | cons c rest ih =>
      intro front htext
      have hmore := ih (front ++ [c]) (by simp [htext])
      rw [List.reverse_concat, List.cons_append] at hmore
      rw [lowerBetween, lowerBetween, hmore, List.append_nil]
      congr 1
      split
      · next hsigma => rw [h front rest (hsigma ▸ htext)]
      · rfl
  rw [lower_eq]
  exact hrest text [] rfl

/-- What stands before and after a character that is neither cased nor case-ignorable is brought to
lower case alone. -/
theorem lower_append_cons (hcased : cased.has c = false) (hignorable : caseIgnorable.has c = false)
    (front back : List Char) :
    lower (front ++ c :: back) = lower front ++ lowerChar c ++ lower back := by
  have hborder (text : List Char) : startsCased (c :: text) = false :=
    (startsCased_cons hignorable text).trans hcased
  have hsigma : c ≠ 'Σ' := by
    rintro rfl
    exact Bool.false_ne_true ((hborder []).symm.trans (startsCased_sigma []))
  have hfront : lowerBetween [] front (c :: back) = lower front :=
    (keepsSigmas_of_not_startsCased rfl (hborder back) front).lowerBetween_eq
  have hback : lowerBetween (c :: front.reverse) back [] = lower back :=
    (keepsSigmas_of_not_startsCased (hborder _) rfl back).lowerBetween_eq
  rw [lower_eq, lowerBetween_append, lowerBetween, List.append_nil, List.append_nil, hfront, hback,
    if_neg hsigma, List.append_assoc]

/-- What a capital sigma becomes between the two parts of a text does not depend on what stands
around the text: it is seen inside that the word goes on, or that it has not begun, or that it has
begun and ends. -/
def SettlesBetween (front back : List Char) : Prop :=
  startsCased back = true ∨ (∃ c ∈ front, caseIgnorable.has c = false) ∧
    (startsCased front.reverse = true → ∃ c ∈ back, caseIgnorable.has c = false)

/-- All capital sigmas of the text are settled by the text itself. -/
def IsSettled (text : List Char) : Prop :=
  ∀ front back, text = front ++ 'Σ' :: back → SettlesBetween front back

theorem isSettled_of_notMem (h : 'Σ' ∉ text) : IsSettled text := by
  rintro front back rfl
  simp at h

/-- A settled text keeps its sigmas between any others. -/
theorem IsSettled.keepsSigmas (h : IsSettled text) (before after : List Char) :
    KeepsSigmas before text after := by
  intro front back htext
  unfold lowerSigma
  obtain hback | ⟨⟨c, hmem, hc⟩, hback⟩ := h front back htext
  · rw [startsCased_append_of_startsCased hback, hback, Bool.not_true, Bool.and_false,
      Bool.and_false]
  · rw [startsCased_append_of_mem (List.mem_reverse.2 hmem) hc]
    cases hfront : startsCased front.reverse with
    | false => rfl
    | true =>
      obtain ⟨d, hd, hignorable⟩ := hback hfront
      rw [startsCased_append_of_mem hd hignorable]

/-- A capital sigma hides from the parts of a text what stands around the text on its other side. -/
theorem lowerBetween_append_sigma (before front back after : List Char) :
    lowerBetween before (front ++ 'Σ' :: back) after =
      lowerBetween before front ['Σ'] ++
        lowerSigma (front.reverse ++ before) (back ++ after) :: lowerBetween ['Σ'] back after := by
  have hfront : lowerBetween before front ('Σ' :: back ++ after) =
      lowerBetween before front ['Σ'] :=
    lowerBetween_congr rfl (by rw [List.cons_append, startsCased_sigma, startsCased_sigma]) front
  have hback : lowerBetween ('Σ' :: (front.reverse ++ before)) back after =
      lowerBetween ['Σ'] back after :=
    lowerBetween_congr (by rw [startsCased_sigma, startsCased_sigma]) rfl back
  rw [lowerBetween_append, hfront, lowerBetween, if_pos rfl, hback]
  rfl

/-- A text with one character replaced does not hold the text that it was. -/
theorem not_infix_of_replaced {front back before after : List Char} {c d : Char} (hne : d ≠ c)
    (hbefore : c ∉ before) (hafter : c ∉ after) :
    ¬ front ++ c :: back <:+: before ++ (front ++ d :: back) ++ after := by
  intro hinfix
  have hcount := hinfix.sublist.count_le c
  simp only [List.count_append, List.count_cons_self, List.count_cons_of_ne hne,
    List.count_eq_zero_of_not_mem hbefore, List.count_eq_zero_of_not_mem hafter] at hcount
  omega

theorem sigma_notMem_of_ignorable (h : ∀ c ∈ text, caseIgnorable.has c = true) : 'Σ' ∉ text :=
  fun hmem => Bool.false_ne_true (not_ignorable_sigma.symm.trans (h _ hmem))

/-- Where only one sigma of a text becomes another one than alone, the text in lower case does not
stand, unless what is around it holds that sigma. -/
theorem not_infix_lower_of_ne
    (hne : lowerSigma (front.reverse ++ before.reverse) (back ++ after) ≠
      lowerSigma front.reverse back)
    (hfront : lowerBetween before.reverse front ['Σ'] = lowerBetween [] front ['Σ'])
    (hback : lowerBetween ['Σ'] back after = lowerBetween ['Σ'] back [])
    (hbefore : ∀ rest, lowerSigma front.reverse back ∉ lowerBetween [] before rest)
    (hafter : ∀ rest, lowerSigma front.reverse back ∉ lowerBetween rest after []) :
    ¬ lower (front ++ 'Σ' :: back) <:+: lower (before ++ (front ++ 'Σ' :: back) ++ after) := by
  rw [lower_append_append, lower_eq, lowerBetween_append_sigma, lowerBetween_append_sigma, hfront,
    hback, List.append_nil, List.append_nil]
  exact not_infix_of_replaced hne (hbefore _) (hafter _)

theorem startsCased_a : startsCased ['a'] = true := by decide +kernel

theorem lowerBetween_a (before after : List Char) : lowerBetween before ['a'] after = ['a'] :=
  lowerBetween_of_notMem (by decide) before after

/-- A text is settled if it stands in lower case wherever it stands itself. The other texts do not
if a letter is put next to them. -/
theorem isSettled_of_infix (h : ∀ before after, lower text <:+: lower (before ++ text ++ after)) :
    IsSettled text := by
  rintro front back rfl
  cases hback : startsCased back with
  | true => exact .inl hback
  | false =>
    refine .inr ⟨?_, fun hfront => ?_⟩
    · by_contra hnone
      have hignorable : ∀ c ∈ front.reverse, caseIgnorable.has c = true := by simpa using hnone
      have hsigma : 'Σ' ∉ front := by simpa using sigma_notMem_of_ignorable hignorable
      have halone : lowerSigma front.reverse back = 'σ' := by
        simp [lowerSigma, startsCased_of_ignorable hignorable]
      have hthere : lowerSigma (front.reverse ++ ['a'].reverse) (back ++ []) = 'ς' := by
        simp [lowerSigma, startsCased_append_of_ignorable hignorable, startsCased_a, hback]
      refine not_infix_lower_of_ne ?_ ?_ rfl ?_ ?_ (h ['a'] [])
      · rw [halone, hthere]
        decide
      · rw [lowerBetween_of_notMem hsigma, lowerBetween_of_notMem hsigma]
      · exact fun rest => by simp [halone, lowerBetween_a]
      · exact fun rest => by simp [lowerBetween]
    · by_contra hnone
      have hignorable : ∀ c ∈ back, caseIgnorable.has c = true := by simpa using hnone
      have hsigma := sigma_notMem_of_ignorable hignorable
      have halone : lowerSigma front.reverse back = 'ς' := by
        simp [lowerSigma, hfront, hback]
      have hthere : lowerSigma (front.reverse ++ [].reverse) (back ++ ['a']) = 'σ' := by
        simp [lowerSigma, startsCased_append_of_ignorable hignorable, startsCased_a]
      refine not_infix_lower_of_ne ?_ rfl ?_ ?_ ?_ (h [] ['a'])
      · rw [halone, hthere]
        decide
      · rw [lowerBetween_of_notMem hsigma, lowerBetween_of_notMem hsigma]
      · exact fun rest => by simp [lowerBetween]
      · exact fun rest => by simp [halone, lowerBetween_a]

/-! ## White space and number signs -/

/-- White space and the number sign. -/
def caseless : Ranges := (0x23, 0x23) :: blanks

theorem caseless_of_ascii : ∀ n : Fin 0x80,
    (caseless.has (Char.ofNat n) = true ∨ caseless.has (Char.ofNat n).toLower = true) →
      (Char.ofNat n).toLower = Char.ofNat n := by
  decide +kernel

theorem caseless_apart : ∀ run ∈ caseRuns, ∀ r ∈ caseless, (run.last < r.1 ∨ r.2 < run.first) ∧
    (run.last + run.offset < r.1 ∨ r.2 < run.first + run.offset) := by
  decide +kernel

theorem lowerChar_cases (c : Char) :
    c.toNat < 0x80 ∧ lowerChar c = [c.toLower] ∨ c = 'İ' ∧ lowerChar c = ['i', '\u0307'] ∨
      (∃ run ∈ caseRuns, run.first ≤ c.toNat ∧ c.toNat ≤ run.last ∧
        lowerChar c = [Char.ofNat (c.toNat + run.offset).toNat]) ∨ lowerChar c = [c] := by
  unfold lowerChar
  split
  · next hascii => exact .inl ⟨hascii, rfl⟩
  · split
    · next hdotted => exact .inr (.inl ⟨hdotted, rfl⟩)
    · split
      · next run hrun =>
        have hin := List.find?_some hrun
        simp only [Bool.and_eq_true, decide_eq_true_eq] at hin
        exact .inr (.inr (.inl ⟨run, List.mem_of_find?_eq_some hrun, hin.1.1, hin.1.2, rfl⟩))
      · exact .inr (.inr (.inr rfl))

theorem toNat_ofNat_or (n : Nat) : (Char.ofNat n).toNat = n ∨ (Char.ofNat n).toNat = 0 := by
  by_cases hvalid : n.isValidChar
  · rw [Char.ofNat, dif_pos hvalid]
    exact .inl rfl
  · rw [Char.ofNat, dif_neg hvalid]
    exact .inr rfl

/-- No other character becomes white space or a number sign. -/
theorem eq_of_mem_lowerChar (hd : caseless.has d = true) (h : d ∈ lowerChar c) : d = c := by
  obtain ⟨hascii, hlower⟩ | ⟨-, hlower⟩ | ⟨run, hrun, hfirst, hlast, hlower⟩ | hlower :=
    lowerChar_cases c
  · have hkept := caseless_of_ascii ⟨c.toNat, hascii⟩
    simp only [Char.ofNat_toNat] at hkept
    obtain rfl : d = c.toLower := by simpa [hlower] using h
    exact hkept (.inr hd)
  · have hdotted : d = 'i' ∨ d = '\u0307' := by simpa [hlower] using h
    obtain rfl | rfl := hdotted <;> exact absurd hd (by decide)
  · obtain rfl : d = Char.ofNat (c.toNat + run.offset).toNat := by simpa [hlower] using h
    obtain ⟨r, hr, hin⟩ := List.any_eq_true.1 hd
    have hapart := caseless_apart run hrun r hr
    have hpos : 0 < r.1 := (by decide : ∀ r ∈ caseless, 0 < r.1) r hr
    simp only [Bool.and_eq_true, decide_eq_true_eq] at hin
    have hvalue := toNat_ofNat_or (c.toNat + run.offset).toNat
    omega
  · rw [hlower] at h
    exact List.mem_singleton.1 h

/-- White space and number signs stay what they are. -/
theorem lowerChar_of_caseless (hc : caseless.has c = true) : lowerChar c = [c] := by
  obtain ⟨hascii, hlower⟩ | ⟨rfl, -⟩ | ⟨run, hrun, hfirst, hlast, -⟩ | hlower := lowerChar_cases c
  · have hkept := caseless_of_ascii ⟨c.toNat, hascii⟩
    simp only [Char.ofNat_toNat] at hkept
    rw [hlower, hkept (.inl hc)]
  · exact absurd hc (by decide)
  · obtain ⟨r, hr, hin⟩ := List.any_eq_true.1 hc
    have hapart := caseless_apart run hrun r hr
    simp only [Bool.and_eq_true, decide_eq_true_eq] at hin
    omega
  · exact hlower

/-- What a character becomes, with the text before it in reverse and the text after it. -/
theorem mem_lowered_iff (hc : caseless.has c = true) (before after : List Char) :
    c ∈ (if d = 'Σ' then [lowerSigma before after] else lowerChar d) ↔ c = d := by
  split
  · next hsigma =>
    subst hsigma
    have hne : c ≠ 'Σ' ∧ c ≠ 'σ' ∧ c ≠ 'ς' := by
      refine ⟨?_, ?_, ?_⟩ <;> rintro rfl <;> exact absurd hc (by decide)
    unfold lowerSigma
    split <;> simp [hne]
  · exact ⟨eq_of_mem_lowerChar hc, fun heq => by simp [← heq, lowerChar_of_caseless hc]⟩

theorem mem_lower_iff (hc : caseless.has c = true) : c ∈ lower text ↔ c ∈ text := by
  have hfrom : ∀ text before, c ∈ lowerFrom before text ↔ c ∈ text := by
    intro text
    induction text with
    | nil => simp [lowerFrom]
    | cons d text ih =>
      intro before
      rw [lowerFrom, List.mem_append, mem_lowered_iff hc, ih, List.mem_cons]
  exact hfrom text []

theorem lowerChar_ne_nil (c : Char) : lowerChar c ≠ [] := by
  obtain ⟨-, hlower⟩ | ⟨-, hlower⟩ | ⟨_, -, -, -, hlower⟩ | hlower := lowerChar_cases c <;>
    simp [hlower]

theorem head?_lower_eq_some_iff (hc : caseless.has c = true) :
    (lower text).head? = some c ↔ text.head? = some c := by
  cases text with
  | nil => rfl
  | cons d text =>
    have hne : (if d = 'Σ' then [lowerSigma [] text] else lowerChar d) ≠ [] := by
      split
      · simp
      · exact lowerChar_ne_nil d
    rw [lower, lowerFrom, List.head?_append_of_ne_nil _ hne, List.head?_cons, Option.some.injEq]
    constructor
    · intro hhead
      exact ((mem_lowered_iff hc [] text).1 (List.mem_of_head? hhead)).symm
    · rintro rfl
      have hsigma : d ≠ 'Σ' := by
        rintro rfl
        exact absurd hc (by decide)
      rw [if_neg hsigma, lowerChar_of_caseless hc]
      rfl
end NoteSearch.Text

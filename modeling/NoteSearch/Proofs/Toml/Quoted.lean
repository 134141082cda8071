import Mathlib.Data.List.Induction
import Mathlib.Data.List.Infix
import NoteSearch.Toml.Quoted
import NoteSearch.Toml.Text

/-!
# Strings are read as they were written

Each form of a string is undone by the reader: what stands for itself is read as it is, what is
escaped is unescaped, and runs of marks are kept too short to close the string. So a string is read
back from the form that is chosen for it, whatever its characters.
-/
namespace NoteSearch.Toml

variable {c mark : Char} {cs rest text : List Char} {fuel run : Nat}

theorem isPrintable_eq (c : Char) : isPrintable c = !isControl c := by
  have htab : c = '\t' ↔ c.toNat = 9 := by
    rw [← Char.toNat_inj]
    rfl
  rw [Bool.eq_iff_iff]
  simp only [isPrintable, isControl, Bool.or_eq_true, Bool.not_eq_true', Bool.or_eq_false_iff,
    Bool.and_eq_true, Bool.and_eq_false_iff, beq_iff_eq, bne_eq_false_iff_eq, decide_eq_true_iff,
    decide_eq_false_iff_not, htab]
  omega

/-! ## Escapes -/

/-- A character as it stands between single quotes. -/
def escapedOnLine (c : Char) : List Char :=
  if c = '"' then ['\\', '"'] else if c = '\n' then ['\\', 'n'] else escaped c

theorem escapedLine_cons (c : Char) (cs : List Char) :
    escapedLine (c :: cs) = escapedOnLine c ++ escapedLine cs := rfl

theorem hexValue?_upperDigits : ∀ n < 0x80, Json.hexValue?
    ['0', '0', upperDigit (n / 16), upperDigit (n % 16)] = some n := by decide

theorem ofNatAux_toNat (c : Char) (h : c.toNat.isValidChar) : Char.ofNatAux c.toNat h = c := by
  have hof : Char.ofNat c.toNat = Char.ofNatAux c.toNat h := dif_pos h
  rw [← hof, Char.ofNat_toNat]

/-- A control character is read back from its number. -/
theorem escapedChar_number (h : isControl c) (rest : List Char) :
    escapedChar ('u' :: '0' :: '0' :: upperDigit (c.toNat / 16) :: upperDigit (c.toNat % 16) ::
      rest) = some (c, rest) := by
  have hsmall : c.toNat < 0x80 := by
    simp only [isControl, Bool.or_eq_true, Bool.and_eq_true, decide_eq_true_iff] at h
    omega
  have hvalid : c.toNat.isValidChar := c.valid
  change (Json.hexValue? ['0', '0', upperDigit (c.toNat / 16), upperDigit (c.toNat % 16)]).bind
    (fun n => if h : n.isValidChar then some (Char.ofNatAux n h, rest) else none) = _
  rw [hexValue?_upperDigits _ hsmall, Option.bind_some, dif_pos hvalid, ofNatAux_toNat]

/-- A character is escaped so that it is read back, or it stands for itself. -/
theorem escaped_cases (c : Char) :
    (∃ more, escaped c = '\\' :: more ∧
      ∀ rest, continued? (more ++ rest) = none ∧ escapedChar (more ++ rest) = some (c, rest)) ∨
    escaped c = [c] ∧ c ≠ '\\' ∧ isPrintable c = true := by
  rw [escaped]
  split_ifs with hslash hback htab hfeed hreturn hcontrol
  · exact .inl ⟨_, rfl, fun rest => ⟨rfl, by rw [hslash]; rfl⟩⟩
  · exact .inl ⟨_, rfl, fun rest => ⟨rfl, by rw [hback]; rfl⟩⟩
  · exact .inl ⟨_, rfl, fun rest => ⟨rfl, by rw [htab]; rfl⟩⟩
  · exact .inl ⟨_, rfl, fun rest => ⟨rfl, by rw [hfeed]; rfl⟩⟩
  · exact .inl ⟨_, rfl, fun rest => ⟨rfl, by rw [hreturn]; rfl⟩⟩
  · exact .inl ⟨_, rfl, fun rest => ⟨rfl, escapedChar_number hcontrol rest⟩⟩
  · exact .inr ⟨rfl, hslash, by simpa [isPrintable_eq] using hcontrol⟩

/-! ## Strings on one line -/

/-- A string without marks and control characters is read as it is. -/
theorem lineText_plain (hmark : mark ∉ cs) (hprintable : ∀ c ∈ cs, isPrintable c = true)
    (hfuel : cs.length < fuel) (rest : List Char) :
    lineText mark false fuel (cs ++ mark :: rest) = some (cs, rest) := by
  induction cs generalizing fuel with
  | nil =>
    obtain ⟨fuel, rfl⟩ := Nat.exists_eq_add_of_lt hfuel
    simp [lineText]
  | cons c cs ih =>
    obtain ⟨fuel, rfl⟩ := Nat.exists_eq_add_of_le' (Nat.zero_lt_of_lt hfuel)
    rw [List.mem_cons, not_or] at hmark
    obtain ⟨hc, hcs⟩ := List.forall_mem_cons.1 hprintable
    have hrest := ih hmark.2 hcs (Nat.lt_of_succ_lt_succ hfuel)
    simp [lineText, Ne.symm hmark.1, hc, hrest]

theorem lineText_escape {more : List Char}
    (h : escapedChar (more ++ rest) = some (c, rest)) (fuel : Nat) :
    lineText '"' true (fuel + 1) ('\\' :: (more ++ rest)) =
      (lineText '"' true fuel rest).map fun (text, rest) => (c :: text, rest) := by
  change (escapedChar (more ++ rest)).bind _ = _
  rw [h]
  change (lineText '"' true fuel rest).bind _ = _
  cases lineText '"' true fuel rest <;> rfl

/-- A character between quotes is read back. -/
theorem lineText_escapedOnLine (c : Char) (fuel : Nat) (rest : List Char) :
    lineText '"' true (fuel + 1) (escapedOnLine c ++ rest) =
      (lineText '"' true fuel rest).map fun (text, rest) => (c :: text, rest) := by
  rw [escapedOnLine]
  split_ifs with hquote hend
  · exact lineText_escape (by rw [hquote]; rfl) fuel
  · exact lineText_escape (by rw [hend]; rfl) fuel
  · obtain ⟨more, hescaped, hread⟩ | ⟨hescaped, hslash, hprintable⟩ := escaped_cases c
    · rw [hescaped]
      exact lineText_escape (hread rest).2 fuel
    · rw [hescaped]
      simp [lineText, hquote, hslash, hprintable]

/-- A string between quotes is read back. -/
theorem lineText_escapedLine (hfuel : cs.length < fuel) (rest : List Char) :
    lineText '"' true fuel (escapedLine cs ++ '"' :: rest) = some (cs, rest) := by
  induction cs generalizing fuel with
  | nil =>
    obtain ⟨fuel, rfl⟩ := Nat.exists_eq_add_of_lt hfuel
    simp [lineText, escapedLine]
  | cons c cs ih =>
    obtain ⟨fuel, rfl⟩ := Nat.exists_eq_add_of_le' (Nat.zero_lt_of_lt hfuel)
    rw [escapedLine_cons, List.append_assoc, lineText_escapedOnLine,
      ih (Nat.lt_of_succ_lt_succ hfuel)]
    rfl

/-! ## Strings on several lines -/

/-- A text after a run of marks has no three marks in a row. -/
def HasShortRuns (mark : Char) (run : Nat) (cs : List Char) : Prop :=
  ¬List.replicate 3 mark <:+: List.replicate run mark ++ cs

theorem HasShortRuns.lt (h : HasShortRuns mark run cs) : run < 3 := by
  by_contra hlong
  refine h (List.IsInfix.trans ?_ (List.prefix_append _ _).isInfix)
  rw [← Nat.add_sub_of_le (Nat.le_of_not_lt hlong), List.replicate_add]
  exact (List.prefix_append _ _).isInfix

theorem HasShortRuns.more (h : HasShortRuns mark run (mark :: cs)) :
    HasShortRuns mark (run + 1) cs := by
  have hmore : List.replicate (run + 1) mark ++ cs = List.replicate run mark ++ mark :: cs := by
    rw [List.replicate_succ', List.append_assoc, List.singleton_append]
  rwa [HasShortRuns, hmore]

theorem HasShortRuns.other (h : HasShortRuns mark run (c :: cs)) : HasShortRuns mark 0 cs :=
  fun hlong => h (hlong.trans ((List.suffix_cons c cs).trans (List.suffix_append _ _)).isInfix)

theorem linesText_mark (escapes : Bool) (fuel run : Nat) (rest : List Char) :
    linesText mark escapes (fuel + 1) run (mark :: rest) =
      linesText mark escapes fuel (run + 1) rest := by
  simp [linesText]

/-- The closing marks are read after a run of marks that belong to the string. -/
theorem linesText_closing (escapes : Bool) (hrun : run < 3) (hrest : rest.head? ≠ some mark)
    (fuel : Nat) :
    linesText mark escapes (fuel + 4) run (mark :: mark :: mark :: rest) =
      some (List.replicate run mark, rest) := by
  rw [linesText_mark, linesText_mark, linesText_mark, linesText, if_neg hrest, if_pos (by omega),
    if_pos (by omega)]
  rfl

/-- A step that reads a piece, after a run of marks that is too short to close the string. -/
theorem linesText_piece {escapes : Bool} {piece : List Char} (hrun : run < 3)
    (hhead : text.head? ≠ some mark) (hpiece : linesPiece escapes text = some (piece, rest))
    (fuel : Nat) :
    linesText mark escapes (fuel + 1) run text =
      (linesText mark escapes fuel 0 rest).map fun (text, rest) =>
        (List.replicate run mark ++ piece ++ text, rest) := by
  rw [linesText, if_neg hhead, if_neg (by omega), hpiece]
  change (linesText mark escapes fuel 0 rest).bind _ = _
  cases linesText mark escapes fuel 0 rest <;> rfl

theorem linesPiece_printable (escapes : Bool) (hprintable : isPrintable c = true)
    (hplain : escapes = true → c ≠ '\\') (cs : List Char) :
    linesPiece escapes (c :: cs) = some ([c], cs) := by
  have hend : c ≠ '\n' := by
    rintro rfl
    exact absurd hprintable (by decide)
  have hreturn : c ≠ '\r' := by
    rintro rfl
    exact absurd hprintable (by decide)
  have hslash : (escapes && c == '\\') = false := by
    rw [Bool.and_eq_false_imp]
    exact fun h => beq_eq_false_iff_ne.2 (hplain h)
  simp [linesPiece, hreturn, hslash, hprintable]

/-- A string without three marks in a row, and without control characters other than line ends, is
read as it is. -/
theorem linesText_plain (hruns : HasShortRuns mark run cs) (hmark : mark ≠ '\n')
    (hprintable : ∀ c ∈ cs, c = '\n' ∨ isPrintable c = true) (hrest : rest.head? ≠ some mark)
    (hfuel : cs.length + 4 ≤ fuel) :
    linesText mark false fuel run (cs ++ mark :: mark :: mark :: rest) =
      some (List.replicate run mark ++ cs, rest) := by
  -- the run that was just read gets longer by a mark, and any other character ends it
  induction cs generalizing fuel run with
  | nil =>
    obtain ⟨fuel, rfl⟩ := Nat.exists_eq_add_of_le' hfuel
    rw [List.append_nil]
    exact linesText_closing false hruns.lt hrest _
  | cons c cs ih =>
    obtain ⟨fuel, rfl⟩ := Nat.exists_eq_add_of_le' (Nat.le_trans (by simp) hfuel : 1 ≤ fuel)
    obtain ⟨hc, hcs⟩ := List.forall_mem_cons.1 hprintable
    have hless : cs.length + 4 ≤ fuel := by
      rw [List.length_cons] at hfuel
      omega
    by_cases hcmark : c = mark
    · subst hcmark
      rw [List.cons_append, linesText_mark, ih hruns.more hcs hless, List.replicate_succ',
        List.append_assoc, List.singleton_append]
    · have hpiece : linesPiece false (c :: (cs ++ mark :: mark :: mark :: rest)) =
          some ([c], cs ++ mark :: mark :: mark :: rest) := by
        obtain rfl | hprintable := hc
        · rfl
        · exact linesPiece_printable false hprintable (by simp) _
      rw [List.cons_append, linesText_piece hruns.lt (by simpa using hcmark) hpiece,
        ih hruns.other hcs hless]
      simp

/-- What a character other than a quote is read back from. -/
theorem linesPiece_escaped (c : Char) (rest : List Char) :
    linesPiece true (escaped c ++ rest) = some ([c], rest) := by
  obtain ⟨more, hescaped, hread⟩ | ⟨hescaped, hslash, hprintable⟩ := escaped_cases c
  · obtain ⟨hgoesOn, hread⟩ := hread rest
    rw [hescaped, List.cons_append]
    simp [linesPiece, hgoesOn, hread]
  · rw [hescaped]
    exact linesPiece_printable true hprintable (fun _ => hslash) rest

theorem head?_escaped (h : c ≠ mark) (hslash : mark ≠ '\\') (rest : List Char) :
    (escaped c ++ rest).head? ≠ some mark := by
  obtain ⟨more, hescaped, -⟩ | ⟨hescaped, -⟩ := escaped_cases c
  · simpa [hescaped] using hslash.symm
  · simpa [hescaped] using h

/-- A string between triple quotes is read back. -/
theorem linesText_escapedLines (hrun : run < 3) (hrest : rest.head? ≠ some '"')
    (hfuel : cs.length + 4 ≤ fuel) :
    linesText '"' true fuel run (escapedLines run cs ++ '"' :: '"' :: '"' :: rest) =
      some (List.replicate run '"' ++ cs, rest) := by
  -- the third quote of a run is escaped, so that no run gets too long
  induction cs generalizing fuel run with
  | nil =>
    obtain ⟨fuel, rfl⟩ := Nat.exists_eq_add_of_le' hfuel
    rw [List.append_nil]
    exact linesText_closing true hrun hrest _
  | cons c cs ih =>
    obtain ⟨fuel, rfl⟩ := Nat.exists_eq_add_of_le' (Nat.le_trans (by simp) hfuel : 1 ≤ fuel)
    have hless : cs.length + 4 ≤ fuel := by
      rw [List.length_cons] at hfuel
      omega
    rw [escapedLines]
    split_ifs with hquote hshort hend
    · subst hquote
      rw [List.cons_append, linesText_mark, ih (by omega) hless, List.replicate_succ',
        List.append_assoc, List.singleton_append]
    · subst hquote
      rw [List.cons_append, List.cons_append, linesText_piece hrun (by simp) (by rfl),
        ih (by omega) hless]
      simp
    · subst hend
      rw [List.cons_append, linesText_piece hrun (by simp) (by rfl), ih (by omega) hless]
      simp
    · rw [List.append_assoc, linesText_piece hrun (head?_escaped hquote (by decide) _)
        (linesPiece_escaped c _), ih (by omega) hless]
      simp

/-! ## How strings start -/

theorem exists_escaped (c : Char) : ∃ first more, escaped c = first :: more ∧
    (first = '\\' ∨ first = c) ∧ isPrintable first = true := by
  obtain ⟨more, hescaped, -⟩ | ⟨hescaped, -, hprintable⟩ := escaped_cases c
  · exact ⟨_, more, hescaped, .inl rfl, by decide⟩
  · exact ⟨c, [], hescaped, .inr rfl, hprintable⟩

theorem exists_escapedOnLine (c : Char) :
    ∃ first more, escapedOnLine c = first :: more ∧ first ≠ '"' := by
  rw [escapedOnLine]
  split_ifs with hquote hend
  · exact ⟨_, _, rfl, by decide⟩
  · exact ⟨_, _, rfl, by decide⟩
  · obtain ⟨first, more, hescaped, rfl | rfl, -⟩ := exists_escaped c
    · exact ⟨_, more, hescaped, by decide⟩
    · exact ⟨_, more, hescaped, hquote⟩

theorem head?_escapedLine (cs : List Char) : (escapedLine cs).head? ≠ some '"' := by
  cases cs with
  | nil => exact Option.some_ne_none _ ∘ Eq.symm
  | cons c cs =>
    obtain ⟨first, more, hescaped, hquote⟩ := exists_escapedOnLine c
    rw [escapedLine_cons, hescaped]
    simpa using hquote

theorem length_le_escapedLine (cs : List Char) : cs.length ≤ (escapedLine cs).length := by
  induction cs with
  | nil => exact Nat.zero_le _
  | cons c cs ih =>
    obtain ⟨first, more, hescaped, -⟩ := exists_escapedOnLine c
    rw [escapedLine_cons, hescaped, List.cons_append, List.length_cons, List.length_cons,
      List.length_append]
    omega

theorem length_le_escapedLines (run : Nat) (cs : List Char) :
    cs.length ≤ (escapedLines run cs).length := by
  induction cs generalizing run with
  | nil => exact Nat.zero_le _
  | cons c cs ih =>
    obtain ⟨first, more, hescaped, -⟩ := exists_escaped c
    have hzero := ih 0
    have hnext := ih (run + 1)
    rw [escapedLines, hescaped]
    split_ifs <;> simp only [List.length_cons, List.cons_append, List.length_append] <;> omega

theorem lineEnd?_of_isPrintable (h : isPrintable c = true) (rest : List Char) :
    lineEnd? (c :: rest) = none := by
  have hend : c ≠ '\n' := by
    rintro rfl
    exact absurd h (by decide)
  have hreturn : c ≠ '\r' := by
    rintro rfl
    exact absurd h (by decide)
  simp [lineEnd?, hend, hreturn]

theorem lineEnd?_escapedLines (h : '\n' ∉ cs) (rest : List Char) :
    lineEnd? (escapedLines 0 cs ++ '"' :: rest) = none := by
  cases cs with
  | nil => rfl
  | cons c cs =>
    rw [List.mem_cons, not_or] at h
    obtain ⟨first, more, hescaped, -, hprintable⟩ := exists_escaped c
    rw [escapedLines, if_neg (Ne.symm h.1), hescaped]
    split_ifs
    · exact lineEnd?_of_isPrintable (by decide) _
    · exact lineEnd?_of_isPrintable (by decide) _
    · exact lineEnd?_of_isPrintable hprintable _

/-! ## What decides the form -/

theorem contents_concat (cs : List Char) (c : Char) : Contents.of (cs ++ [c]) =
    { newline := (Contents.of cs).newline || c == '\n'
      backslash := (Contents.of cs).backslash || c == '\\'
      control := (Contents.of cs).control || (isControl c && c != '\n')
      quotes := lengthened (Contents.of cs).quotes (c == '"')
      apostrophes := lengthened (Contents.of cs).apostrophes (c == '\'') } := by
  rw [Contents.of, List.foldl_concat]
  rfl

theorem newline_contents (cs : List Char) : (Contents.of cs).newline = decide ('\n' ∈ cs) := by
  induction cs using List.reverseRecOn with
  | nil => rfl
  | append_singleton cs c ih => simp [contents_concat, ih, eq_comm (a := c), beq_eq_decide]

theorem control_contents (cs : List Char) :
    (Contents.of cs).control = cs.any fun c => isControl c && c != '\n' := by
  induction cs using List.reverseRecOn with
  | nil => rfl
  | append_singleton cs c ih => simp [contents_concat, ih]

theorem lengthened_snd_le (run : Nat × Nat) (same : Bool) :
    (lengthened run same).2 ≤ (lengthened run same).1 := by
  cases same
  · exact Nat.zero_le _
  · exact Nat.le_max_right _ _

theorem le_lengthened_fst (run : Nat × Nat) (same : Bool) : run.1 ≤ (lengthened run same).1 := by
  cases same
  · exact Nat.le_refl _
  · exact Nat.le_max_left _ _

/-- No run of apostrophes is longer than the longest one, and none at the end longer than the
last. -/
theorem le_apostrophes (n : Nat) (cs : List Char) :
    (List.replicate n '\'' <:+ cs → n ≤ (Contents.of cs).apostrophes.2) ∧
      (List.replicate n '\'' <:+: cs → n ≤ (Contents.of cs).apostrophes.1) := by
  induction cs using List.reverseRecOn generalizing n with
  | nil =>
    have hnil : List.replicate n '\'' = [] → n = 0 := (List.replicate_eq_nil_iff _).1
    exact ⟨fun h => (hnil (List.suffix_nil.1 h)).le, fun h => (hnil (List.infix_nil.1 h)).le⟩
  | append_singleton cs c ih =>
    rw [contents_concat]
    have hend : List.replicate n '\'' <:+ cs ++ [c] →
        n ≤ (lengthened (Contents.of cs).apostrophes (c == '\'')).2 := by
      intro hsuffix
      cases n with
      | zero => exact Nat.zero_le _
      | succ n =>
        rw [List.replicate_succ', List.suffix_concat_iff] at hsuffix
        obtain hnil | ⟨front, hfront, hbefore⟩ := hsuffix
        · simp at hnil
        · obtain ⟨rfl, hc⟩ := List.append_inj' hfront rfl
          obtain rfl := List.singleton_inj.1 hc
          exact Nat.succ_le_succ ((ih n).1 hbefore)
    refine ⟨hend, fun hinfix => ?_⟩
    obtain hlast | hbefore := List.infix_concat_iff.1 hinfix
    · exact (hend hlast).trans (lengthened_snd_le _ _)
    · exact ((ih n).2 hbefore).trans (le_lengthened_fst _ _)

theorem hasShortRuns_of_apostrophes (h : (Contents.of cs).apostrophes.1 ≤ 2) :
    HasShortRuns '\'' 0 cs := by
  intro hlong
  have hthree := (le_apostrophes 3 cs).2 hlong
  omega

/-! ## Strings in their forms -/

/-- Nothing that can be a mark of a string follows. -/
def IsApart (rest : List Char) : Prop := rest.head? ≠ some '"' ∧ rest.head? ≠ some '\''

/-- A string on one line is not taken for one on several lines. -/
theorem anyString_line (hmark : mark = '"' ∨ mark = '\'') (htext : text.head? ≠ some mark)
    (hrest : rest.head? ≠ some mark) :
    anyString (mark :: (text ++ mark :: rest)) = lineString (mark :: (text ++ mark :: rest)) := by
  have hapart : ∀ more, text ++ mark :: rest ≠ mark :: mark :: more := by
    intro more heq
    cases text with
    | nil => exact hrest (by rw [(List.cons.inj heq).2]; rfl)
    | cons c text => exact htext (congrArg some (List.cons.inj heq).1)
  obtain rfl | rfl := hmark
  · rw [anyString]
    · exact fun more heq => hapart more (List.cons.inj heq).2
    · exact fun more heq => absurd (List.cons.inj heq).1 (by decide)
  · rw [anyString]
    · exact fun more heq => absurd (List.cons.inj heq).1 (by decide)
    · exact fun more heq => hapart more (List.cons.inj heq).2

theorem anyString_quote (hrest : IsApart rest) :
    anyString (between ['"'] (escapedLine cs) ++ rest) = some (String.ofList cs, rest) := by
  have hbetween : between ['"'] (escapedLine cs) ++ rest =
      '"' :: (escapedLine cs ++ '"' :: rest) := by simp [between]
  have hfuel : cs.length < (escapedLine cs ++ '"' :: rest).length + 1 := by
    have hlength := length_le_escapedLine cs
    rw [List.length_append]
    omega
  rw [hbetween, anyString_line (.inl rfl) (head?_escapedLine cs) hrest.1, lineString,
    lineText_escapedLine hfuel]
  rfl

theorem anyString_apostrophe (hmark : '\'' ∉ cs) (hprintable : ∀ c ∈ cs, isPrintable c = true)
    (hrest : IsApart rest) :
    anyString (between ['\''] cs ++ rest) = some (String.ofList cs, rest) := by
  have hbetween : between ['\''] cs ++ rest = '\'' :: (cs ++ '\'' :: rest) := by simp [between]
  have hfuel : cs.length < (cs ++ '\'' :: rest).length + 1 := by
    rw [List.length_append]
    omega
  have hhead : cs.head? ≠ some '\'' := fun hhead => hmark (List.mem_of_mem_head? hhead)
  rw [hbetween, anyString_line (.inr rfl) hhead hrest.2, lineString,
    lineText_plain hmark hprintable hfuel]
  rfl

/-- The line end that is put before a string with line ends is left out again. -/
theorem skipLineEnd_onLines (hend : '\n' ∉ cs → lineEnd? text = none) :
    skipLineEnd (onLines (Contents.of cs) text) = text := by
  rw [onLines, skipLineEnd, newline_contents]
  split
  · rfl
  · next hnone => rw [hend (by simpa using hnone), Option.getD_none]

theorem between_onLines (mark : Char) (found : Contents) (text rest : List Char) :
    between (List.replicate 3 mark) (onLines found text) ++ rest = mark :: mark :: mark ::
      onLines found (text ++ mark :: mark :: mark :: rest) := by
  rw [onLines, onLines]
  split <;> simp [between, List.replicate]

theorem length_le_onLines (found : Contents) (text : List Char) :
    text.length ≤ (onLines found text).length := by
  rw [onLines]
  split
  · exact Nat.le_succ _
  · exact Nat.le_refl _

theorem anyString_quotes (hrest : IsApart rest) :
    anyString (between (List.replicate 3 '"') (onLines (Contents.of cs) (escapedLines 0 cs)) ++
      rest) = some (String.ofList cs, rest) := by
  have hlength := length_le_escapedLines 0 cs
  have hlines := length_le_onLines (Contents.of cs) (escapedLines 0 cs ++ '"' :: '"' :: '"' :: rest)
  rw [List.length_append, List.length_cons, List.length_cons, List.length_cons] at hlines
  rw [between_onLines, anyString, skipLineEnd_onLines fun hnone => lineEnd?_escapedLines hnone _,
    linesText_escapedLines (by decide) hrest.1 (by omega)]
  rfl

theorem anyString_apostrophes (hruns : HasShortRuns '\'' 0 cs)
    (hprintable : ∀ c ∈ cs, c = '\n' ∨ isPrintable c = true) (hrest : IsApart rest) :
    anyString (between (List.replicate 3 '\'') (onLines (Contents.of cs) cs) ++ rest) =
      some (String.ofList cs, rest) := by
  have hlines := length_le_onLines (Contents.of cs) (cs ++ '\'' :: '\'' :: '\'' :: rest)
  rw [List.length_append, List.length_cons, List.length_cons, List.length_cons] at hlines
  have hnoEnd : '\n' ∉ cs → lineEnd? (cs ++ '\'' :: '\'' :: '\'' :: rest) = none := by
    intro hnone
    cases cs with
    | nil => rfl
    | cons c cs =>
      rw [List.mem_cons, not_or] at hnone
      obtain hend | hfirst := hprintable c List.mem_cons_self
      · exact absurd hend.symm hnone.1
      · exact lineEnd?_of_isPrintable hfirst _
  rw [between_onLines, anyString, skipLineEnd_onLines hnoEnd,
    linesText_plain hruns (by decide) hprintable hrest.2 (by omega)]
  rfl

/-- Without such control characters as no form can hold, all is printable but line ends. -/
theorem printable_of_control (h : (Contents.of cs).control = false) (hc : c ∈ cs) :
    c = '\n' ∨ isPrintable c = true := by
  rw [control_contents, List.any_eq_false] at h
  have hplain := h c hc
  rw [isPrintable_eq]
  by_cases hend : c = '\n'
  · exact .inl hend
  · simpa [hend] using hplain

/-- A string is read back from its form. -/
theorem anyString_quoted (cs : List Char) (hrest : IsApart rest) :
    anyString (quoted cs ++ rest) = some (String.ofList cs, rest) := by
  rw [quoted]
  split_ifs with hline hplain hlines hplains hend
  · exact anyString_quote hrest
  · simp only [Bool.and_eq_true, Bool.not_eq_true', decide_eq_true_iff, newline_contents,
      decide_eq_false_iff_not] at hplain
    obtain ⟨⟨hcontrol, hnone⟩, hend⟩ := hplain
    refine anyString_apostrophe (fun hmark => ?_) (fun c hc => ?_) hrest
    · obtain ⟨front, more, hcs⟩ := List.append_of_mem hmark
      have hone : 1 ≤ (Contents.of cs).apostrophes.1 :=
        (le_apostrophes 1 cs).2 ⟨front, more, by simp [hcs]⟩
      omega
    · exact (printable_of_control hcontrol hc).resolve_left fun h => hend (h ▸ hc)
  · exact anyString_quotes hrest
  · simp only [Bool.and_eq_true, Bool.not_eq_true', decide_eq_true_iff] at hplains
    obtain ⟨hcontrol, hshort⟩ := hplains
    exact anyString_apostrophes (hasShortRuns_of_apostrophes hshort)
      (fun c hc => printable_of_control hcontrol hc) hrest
  · exact anyString_quotes hrest
  · exact anyString_quote hrest

end NoteSearch.Toml

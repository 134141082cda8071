import NoteSearch.Proofs.Query.Readable

/-!
# The grammar of queries

A query that is not all white space is read exactly if readable terms have been written in it, and
then just these are read. A fault lies where the terms before it end, or the separator after
them, and these terms alone would have been read.
-/
namespace NoteSearch.Query
open Text

theorem toList_write_singleton (term : Term) : (write [term]).toList = term.written := by
  simp [write, join]

theorem toList_write_cons (term : Term) {terms : List Term} (hne : terms ≠ []) :
    (write (term :: terms)).toList = term.written ++ (between ++ (write terms).toList) := by
  cases terms with
  | nil => exact absurd rfl hne
  | cons next terms => simp [write, join]

/-! ## One term after the other -/

theorem readTerms_of_error {position : Nat} {cs : List Char} {message : String}
    (h : readTerm cs = .error message) :
    readTerms position cs = .error (.malformed position message) := by
  rw [readTerms]
  split
  · next message' h' =>
    rw [h] at h'
    cases h'
    rfl
  · next h' =>
    rw [h] at h'
    cases h'

theorem readTerms_of_ok {position : Nat} {cs rest : List Char} {term : Term}
    (h : readTerm cs = .ok (term, rest)) :
    readTerms position cs =
      if rest.isEmpty then .ok [term]
      else match after? between rest with
        | none => .error (.malformed (position + byteCount term.written) noSeparator)
        | some next =>
          (readTerms (position + byteCount term.written + byteCount between) next).map
            (term :: ·) := by
  rw [readTerms]
  split
  · next h' =>
    rw [h] at h'
    cases h'
  · next term' rest' h' =>
    rw [h] at h'
    simp only [Except.ok.injEq, Prod.mk.injEq] at h'
    obtain ⟨rfl, rfl⟩ := h'
    have hreached : byteCount cs - byteCount rest = byteCount term.written := by
      rw [readTerm_append h, byteCount_append]
      omega
    simp only [hreached]
    split
    · rfl
    · split
      · next hnone => simp only [hnone]
      · next next hsome =>
        simp only [hsome]
        cases readTerms (position + byteCount term.written + byteCount between) next <;> rfl

/-- Reading fails at the first term that is not one. -/
theorem readTerms_eq_ok_iff {position : Nat} {cs : List Char} {terms : List Term} :
    readTerms position cs = .ok terms ↔
      terms ≠ [] ∧ (∀ t ∈ terms, t.IsReadable) ∧ (write terms).toList = cs := by
  constructor
  · intro h
    induction hlen : cs.length using Nat.strongRecOn generalizing position cs terms with
    | _ n ih =>
      cases hterm : readTerm cs with
      | error message =>
        rw [readTerms_of_error hterm] at h
        cases h
      | ok found =>
        obtain ⟨term, rest⟩ := found
        obtain ⟨hcs, hreadable, hends⟩ := readTerm_eq_ok_iff.1 hterm
        rw [readTerms_of_ok hterm] at h
        split at h
        · next hempty =>
          cases h
          rw [List.isEmpty_iff.1 hempty, List.append_nil] at hcs
          exact ⟨by simp, by simpa using hreadable, by rw [toList_write_singleton, hcs]⟩
        · split at h
          · cases h
          · next next hnext =>
            obtain ⟨further, hfurther, rfl⟩ := map_eq_ok_iff.1 h
            have hlt := length_lt_of_readTerm hterm hnext
            obtain ⟨hne, hall, hwrite⟩ := ih next.length (by omega) hfurther rfl
            refine ⟨by simp, by simpa using ⟨hreadable, hall⟩, ?_⟩
            rw [toList_write_cons term hne, hwrite, hcs, after?_eq_some_iff.1 hnext]
  · rintro ⟨hne, hall, rfl⟩
    induction terms generalizing position with
    | nil => exact absurd rfl hne
    | cons term terms ih =>
      have hreadable := hall term List.mem_cons_self
      by_cases hnil : terms = []
      · subst hnil
        have hterm : readTerm (write [term]).toList = .ok (term, []) :=
          readTerm_eq_ok_iff.2
            ⟨by rw [toList_write_singleton, List.append_nil], hreadable, fun _ => .inl rfl⟩
        simp [readTerms_of_ok hterm]
      · have hterm : readTerm (write (term :: terms)).toList =
            .ok (term, between ++ (write terms).toList) :=
          readTerm_eq_ok_iff.2
            ⟨toList_write_cons term hnil, hreadable, fun _ => .inr (List.prefix_append _ _)⟩
        have hfurther := fun position =>
          @ih position hnil fun t ht => hall t (List.mem_cons_of_mem term ht)
        have hrest : (between ++ (write terms).toList).isEmpty = false := rfl
        rw [readTerms_of_ok hterm, hrest, after?_append]
        simp only [hfurther]
        rfl

/-- A text after which a fault can lie: nothing, or terms, perhaps with the separator for more. -/
def FollowsTerms (front : List Char) : Prop :=
  front = [] ∨ ∃ terms, terms ≠ [] ∧ (∀ t ∈ terms, t.IsReadable) ∧
    (front = (write terms).toList ∨ front = (write terms).toList ++ between)

theorem FollowsTerms.cons {term : Term} (hterm : term.IsReadable) {front : List Char}
    (h : FollowsTerms front) : FollowsTerms (term.written ++ (between ++ front)) := by
  right
  obtain rfl | ⟨terms, hne, hall, hfront⟩ := h
  · refine ⟨[term], by simp, by simpa using hterm, .inr ?_⟩
    rw [toList_write_singleton, List.append_nil]
  · refine ⟨term :: terms, by simp, by simpa using ⟨hterm, hall⟩, ?_⟩
    rw [toList_write_cons term hne]
    obtain rfl | rfl := hfront
    · exact .inl rfl
    · exact .inr (by simp only [List.append_assoc])

/-- The terms before a fault are all readable, and the fault is where they end. -/
theorem readTerms_error {position : Nat} {cs : List Char} {fault : Fault}
    (h : readTerms position cs = .error fault) :
    ∃ front back message, cs = front ++ back ∧ FollowsTerms front ∧
      fault = .malformed (position + byteCount front) message := by
  induction hlen : cs.length using Nat.strongRecOn generalizing position cs with
  | _ n ih =>
    cases hterm : readTerm cs with
    | error message =>
      rw [readTerms_of_error hterm] at h
      cases h
      exact ⟨[], cs, message, rfl, .inl rfl, by simp⟩
    | ok found =>
      obtain ⟨term, rest⟩ := found
      obtain ⟨hcs, hreadable, -⟩ := readTerm_eq_ok_iff.1 hterm
      rw [readTerms_of_ok hterm] at h
      split at h
      · cases h
      · split at h
        · cases h
          have hfollows : FollowsTerms term.written :=
            .inr ⟨[term], by simp, by simpa using hreadable,
              .inl (toList_write_singleton term).symm⟩
          exact ⟨term.written, rest, noSeparator, hcs, hfollows, rfl⟩
        · next next hnext =>
          have hfurther : readTerms (position + byteCount term.written + byteCount between) next =
              .error fault := by
            cases hr : readTerms (position + byteCount term.written + byteCount between) next with
            | error fault' =>
              rw [hr] at h
              simpa [Except.map] using h
            | ok terms =>
              rw [hr] at h
              cases h
          have hlt := length_lt_of_readTerm hterm hnext
          obtain ⟨front, back, message, rfl, hfollows, rfl⟩ :=
            ih next.length (by omega) hfurther rfl
          refine ⟨term.written ++ (between ++ front), back, message, ?_, hfollows.cons hreadable,
            ?_⟩
          · rw [hcs, after?_eq_some_iff.1 hnext]
            simp only [List.append_assoc]
          · simp only [byteCount_append, Nat.add_assoc]

/-! ## Whole queries -/

/-- A readable term starts with something to see. -/
theorem exists_not_blank_of_isReadable {term : Term} (h : term.IsReadable) :
    ∃ c ∈ term.written, isBlank c = false := by
  obtain ⟨kind, target, negated⟩ := term
  cases kind with
  | tag =>
    obtain ⟨c, hc⟩ := List.exists_mem_of_ne_nil _ h.ne_nil
    have hblank := List.any_eq_false.1 h.2.1 c hc
    exact ⟨c, by simp [Term.written, hc], Bool.eq_false_iff.2 hblank⟩
  | folder => exact ⟨'"', by simp [Term.written], by decide⟩
  | link => exact ⟨'[', by simp [Term.written], by decide⟩
  | outgoing => exact ⟨'[', by simp [Term.written], by decide⟩

/-- What is written in a query is never all white space. -/
theorem not_allBlank_write {terms : List Term} (hne : terms ≠ [])
    (hall : ∀ t ∈ terms, t.IsReadable) : allBlank (write terms).toList = false := by
  obtain ⟨term, terms, rfl⟩ := List.exists_cons_of_ne_nil hne
  obtain ⟨c, hc, hblank⟩ := exists_not_blank_of_isReadable (hall term List.mem_cons_self)
  have hmem : c ∈ (write (term :: terms)).toList := by
    by_cases hnil : terms = []
    · subst hnil
      rwa [toList_write_singleton]
    · rw [toList_write_cons term hnil]
      exact List.mem_append_left _ hc
  simp only [allBlank, List.all_eq_false]
  exact ⟨c, hmem, by simp [hblank]⟩

/-- A query is read exactly if it is all white space or readable terms are written in it. -/
theorem read_eq_ok_iff {query : String} {terms : List Term} :
    read query = .ok terms ↔
      (allBlank query.toList = true ∧ terms = []) ∨
        (terms ≠ [] ∧ (∀ t ∈ terms, t.IsReadable) ∧ write terms = query) := by
  unfold read
  by_cases hblank : allBlank query.toList = true
  · simp only [hblank, if_true, Except.ok.injEq, true_and]
    constructor
    · rintro rfl
      exact .inl rfl
    · rintro (rfl | ⟨hne, hall, rfl⟩)
      · rfl
      · rw [not_allBlank_write hne hall] at hblank
        cases hblank
  · simp only [hblank, Bool.false_eq_true, if_false, false_and, false_or]
    rw [readTerms_eq_ok_iff, String.toList_inj]

/-- A text that a fault can lie after is read by itself, without the separator at its end. -/
theorem FollowsTerms.read {front : String} (h : FollowsTerms front.toList) :
    front = "" ∨ ∃ terms, terms ≠ [] ∧ (read front = .ok terms ∨
      ∃ shorter, front = shorter ++ " and " ∧ read shorter = .ok terms) := by
  obtain hnil | ⟨terms, hne, hall, hfront⟩ := h
  · exact .inl (by simpa using hnil)
  · refine .inr ⟨terms, hne, ?_⟩
    obtain hfront | hfront := hfront
    · exact .inl (read_eq_ok_iff.2 (.inr ⟨hne, hall, (String.toList_inj.1 hfront).symm⟩))
    · refine .inr ⟨write terms, ?_, read_eq_ok_iff.2 (.inr ⟨hne, hall, rfl⟩)⟩
      rw [← String.toList_inj, hfront, String.toList_append]
      rfl

theorem read_error {query : String} {fault : Fault} (h : read query = .error fault) :
    ∃ front back message, query = front ++ back ∧ FollowsTerms front.toList ∧
      fault = .malformed front.utf8ByteSize message := by
  simp only [Query.read] at h
  split at h
  · cases h
  · obtain ⟨front, back, message, hcs, hfollows, rfl⟩ := readTerms_error h
    refine ⟨String.ofList front, String.ofList back, message, ?_, ?_, ?_⟩
    · rw [← String.ofList_append, ← hcs, String.ofList_toList]
    · rwa [String.toList_ofList]
    · rw [utf8ByteSize_ofList, Nat.zero_add]

/-- Whatever query is asked, just the texts of the grammar are taken for terms, and a fault is
reported where terms end that would have been read alone, or the separator after them. -/
theorem read_grammar (query : String) :
    (allBlank query.toList = true → read query = .ok []) ∧
    (allBlank query.toList = false → ∀ terms, read query = .ok terms ↔
      terms ≠ [] ∧ (∀ t ∈ terms, t.target ≠ "" ∧ t.IsReadable) ∧ write terms = query) ∧
    (∀ fault, read query = .error fault → ∃ position message front back,
      fault = .malformed position message ∧
      query = front ++ back ∧ position = front.utf8ByteSize ∧
      position ≤ query.utf8ByteSize ∧ String.Pos.Raw.IsValid query ⟨position⟩ ∧
      (front = "" ∨ ∃ terms, terms ≠ [] ∧
        (read front = .ok terms ∨
          ∃ shorter, front = shorter ++ " and " ∧ read shorter = .ok terms))) := by
  refine ⟨fun hblank => read_eq_ok_iff.2 (.inl ⟨hblank, rfl⟩), fun hblank terms => ?_, ?_⟩
  · rw [read_eq_ok_iff, hblank]
    simp only [Bool.false_eq_true, false_and, false_or]
    have htarget : ∀ t : Term, t.IsReadable → t.target ≠ "" := by
      intro t ht hempty
      exact ht.ne_nil (by simp [hempty])
    exact and_congr_right fun _ =>
      and_congr_left fun _ => forall₂_congr fun t _ => ⟨fun ht => ⟨htarget t ht, ht⟩, And.right⟩
  · intro fault h
    obtain ⟨front, back, message, rfl, hfollows, rfl⟩ := read_error h
    have hvalid : String.Pos.Raw.IsValid (front ++ back) ⟨front.utf8ByteSize⟩ :=
      String.Pos.Raw.isValid_rawEndPos.append_right back
    exact ⟨front.utf8ByteSize, message, front, back, rfl, rfl, rfl, hvalid.le_utf8ByteSize, hvalid,
      hfollows.read⟩

end NoteSearch.Query

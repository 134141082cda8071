import Mathlib.Tactic.Tauto
import NoteSearch.Proofs.Text.Cutting
import NoteSearch.Query.Compile
import NoteSearch.Query.Read

/-!
# Readable terms

A query has no escapes, so not every target can stand in a term. The targets that can are those
that do not hold what closes the term, and a bare tag must not look like anything else. Such a term
is read back wherever it stands, and no other term is ever read.
-/
namespace NoteSearch.Query
open Text

/-- The targets that a term of this kind is read back with. -/
def TermKind.Carries (negated : Bool) (target : List Char) : TermKind → Prop
  | .tag => target ≠ [] ∧ target.any isBlank = false ∧
      ¬ "[[".toList <+: target ∧ ¬ "\"".toList <+: target ∧ ¬ "outgoing([[".toList <+: target ∧
      (negated = false → ¬ "!".toList <+: target)
  | .folder => target ≠ [] ∧ '"' ∉ target
  | .link => target ≠ [] ∧ ¬ "]]".toList <:+: target ∧ ¬ "]".toList <:+ target
  | .outgoing => target ≠ [] ∧ ¬ "]])".toList <:+: target

instance (negated : Bool) (target : List Char) :
    (kind : TermKind) → Decidable (kind.Carries negated target)
  | .tag => inferInstanceAs (Decidable (_ ∧ _ ∧ _ ∧ _ ∧ _ ∧ _))
  | .folder => inferInstanceAs (Decidable (_ ∧ _))
  | .link => inferInstanceAs (Decidable (_ ∧ _ ∧ _))
  | .outgoing => inferInstanceAs (Decidable (_ ∧ _))

/-- The term is read back as it was written. -/
def Term.IsReadable (t : Term) : Prop := t.kind.Carries t.negated t.target.toList

instance (t : Term) : Decidable t.IsReadable :=
  inferInstanceAs (Decidable (t.kind.Carries t.negated t.target.toList))

theorem TermKind.Carries.ne_nil {kind : TermKind} {negated : Bool} {target : List Char}
    (h : kind.Carries negated target) : target ≠ [] := by
  cases kind <;> exact h.1

/-- For a kind with marks, the closing mark is first found where the target ends. -/
theorem carries_iff_clear {kind : TermKind} (hkind : kind ∈ framedKinds) {negated : Bool}
    {target rest : List Char} :
    kind.Carries negated target ↔
      target ≠ [] ∧ Clear kind.frame.2 target (kind.frame.2 ++ rest) := by
  simp only [framedKinds, List.mem_cons, List.not_mem_nil, or_false] at hkind
  obtain rfl | rfl | rfl := hkind
  · exact and_congr_right fun _ => (clear_pair_concat_iff (by decide)).symm
  · exact and_congr_right fun _ => clear_pair_iff.symm
  · exact and_congr_right fun _ => clear_singleton_iff.symm

theorem readTarget_eq_ok_iff {kind : TermKind} (hkind : kind ∈ framedKinds) {negated : Bool}
    {cs target rest : List Char} :
    readTarget kind cs = .ok (target, rest) ↔
      cs = target ++ kind.frame.2 ++ rest ∧ kind.Carries negated target := by
  have hmark : kind.frame.2 ≠ [] := by
    cases kind with
    | tag => simp [framedKinds] at hkind
    | folder | link | outgoing => simp
  rw [@carries_iff_clear kind hkind negated target rest, List.append_assoc]
  unfold readTarget
  cases hcut : cut? kind.frame.2 cs with
  | none =>
    simp only [reduceCtorEq, false_iff, not_and]
    rintro rfl
    exact absurd ⟨target, rest, by simp⟩ (not_infix_of_cut?_eq_none hcut)
  | some found =>
    obtain ⟨front, after⟩ := found
    have hiff := @cut?_eq_some_iff kind.frame.2 cs target rest hmark
    rw [hcut, Option.some.injEq, Prod.mk.injEq] at hiff
    cases front with
    | nil =>
      simp only [reduceCtorEq, false_iff]
      rintro ⟨hcs, hne, hclear⟩
      exact hne (hiff.2 ⟨hcs, hclear⟩).1.symm
    | cons c front =>
      simp only [Except.ok.injEq, Prod.mk.injEq]
      rw [hiff]
      constructor
      · rintro ⟨hcs, hclear⟩
        refine ⟨hcs, ?_, hclear⟩
        rintro rfl
        simpa using (hiff.2 ⟨hcs, hclear⟩).1
      · rintro ⟨hcs, _, hclear⟩
        exact ⟨hcs, hclear⟩

/-- What may follow a bare tag: the end of the query, or a separator. -/
def EndsTag (rest : List Char) : Prop := rest = [] ∨ between <+: rest

/-- What would be a tag is cut off where something follows that ends one. -/
theorem exists_readTag (cs : List Char) :
    ∃ tag rest, cs = tag ++ rest ∧ EndsTag rest ∧
      readTag cs =
        if tag.isEmpty || tag.any isBlank then .error (noTerm tag) else .ok (tag, rest) := by
  unfold readTag
  cases hcut : cut? between cs with
  | none => exact ⟨cs, [], (List.append_nil cs).symm, .inl rfl, rfl⟩
  | some found =>
    obtain ⟨tag, next⟩ := found
    have hcs : cs = tag ++ (between ++ next) :=
      (eq_append_of_cut? hcut).trans (List.append_assoc ..)
    exact ⟨tag, between ++ next, hcs, .inr (List.prefix_append _ _), rfl⟩

/-- Before what ends a tag it is cut off if it has no blanks, which the separator is made of. -/
theorem readTag_append_of_endsTag {tag rest : List Char} (hblank : tag.any isBlank = false)
    (hrest : EndsTag rest) :
    readTag (tag ++ rest) =
      if tag.isEmpty || tag.any isBlank then .error (noTerm tag) else .ok (tag, rest) := by
  obtain rfl | ⟨next, rfl⟩ := hrest
  · have hcut : cut? between tag = none := by
      cases hcut : cut? between tag with
      | none => rfl
      | some found =>
        rw [eq_append_of_cut? hcut, List.any_append, List.any_append] at hblank
        simp [between, isBlank, blanks, Ranges.has] at hblank
    simp only [List.append_nil, readTag, hcut]
  · have hcut : cut? between (tag ++ (between ++ next)) = some (tag, next) :=
      (cut?_eq_some_iff (by decide)).2 ⟨rfl, clear_of_not_blank (by decide) hblank⟩
    simp only [readTag, hcut]

theorem readTag_eq_ok_iff {cs tag rest : List Char} :
    readTag cs = .ok (tag, rest) ↔
      cs = tag ++ rest ∧ tag ≠ [] ∧ tag.any isBlank = false ∧ EndsTag rest := by
  have hok : ∀ tag : List Char, ¬ (tag.isEmpty || tag.any isBlank) = true ↔
      tag ≠ [] ∧ tag.any isBlank = false := by simp
  constructor
  · intro h
    obtain ⟨tag', rest', rfl, hends, hread⟩ := exists_readTag cs
    rw [hread] at h
    split at h
    · cases h
    · next hgood =>
      obtain ⟨rfl, rfl⟩ : tag' = tag ∧ rest' = rest := by simpa using h
      obtain ⟨hne, hblank⟩ := (hok tag').1 hgood
      exact ⟨rfl, hne, hblank, hends⟩
  · rintro ⟨rfl, hne, hblank, hends⟩
    rw [readTag_append_of_endsTag hblank hends, if_neg ((hok tag).2 ⟨hne, hblank⟩)]

/-- An opening mark before what ends a tag would have to stand in the tag. -/
theorem prefix_of_prefix_append {mark tag rest : List Char} (hmark : mark.any isBlank = false)
    (hrest : EndsTag rest) (h : mark <+: tag ++ rest) : mark <+: tag := by
  obtain hle | ⟨more, rfl⟩ :=
    (List.prefix_or_prefix_of_prefix h (List.prefix_append tag rest))
  · exact hle
  · rw [List.prefix_append_right_inj] at h
    cases more with
    | nil => simp
    | cons c more =>
      obtain rfl | ⟨next, rfl⟩ := hrest
      · simp at h
      · obtain ⟨hc, _⟩ := List.cons_prefix_cons.1 (show c :: more <+: ' ' :: _ from h)
        exact absurd hc (by rintro rfl; simp [isBlank, blanks, Ranges.has] at hmark)

/-- What follows an opening mark is read as a target of that kind. -/
theorem readBody_opened {kind : TermKind} (hkind : kind ∈ framedKinds) (opened : List Char) :
    readBody framedKinds (kind.frame.1 ++ opened) =
      (readTarget kind opened).map fun (target, rest) => (kind, target, rest) := by
  simp only [framedKinds, List.mem_cons, List.not_mem_nil, or_false] at hkind
  obtain rfl | rfl | rfl := hkind <;> simp [framedKinds, readBody, after?]

/-- What starts with no opening mark is read as a bare tag. -/
theorem readBody_bare {cs : List Char} (h : ∀ kind ∈ framedKinds, ¬ kind.frame.1 <+: cs) :
    readBody framedKinds cs = (readTag cs).map fun (tag, rest) => (.tag, tag, rest) := by
  have houtgoing := after?_eq_none_iff.2 (h .outgoing (by decide))
  have hlink := after?_eq_none_iff.2 (h .link (by decide))
  have hfolder := after?_eq_none_iff.2 (h .folder (by decide))
  simp only [framedKinds, readBody, houtgoing, hlink, hfolder]

/-- A bare tag starts with no opening mark. -/
theorem carries_tag_iff {target : List Char} :
    TermKind.tag.Carries true target ↔ target ≠ [] ∧ target.any isBlank = false ∧
      ∀ kind ∈ framedKinds, ¬ kind.frame.1 <+: target := by
  have hmarks : (∀ kind ∈ framedKinds, ¬ kind.frame.1 <+: target) ↔
      ¬ "outgoing([[".toList <+: target ∧ ¬ "[[".toList <+: target ∧ ¬ "\"".toList <+: target := by
    simp [framedKinds]
  rw [hmarks]
  simp only [TermKind.Carries, Bool.true_eq_false, false_implies, and_true]
  tauto

theorem any_isBlank_opening (kind : TermKind) : kind.frame.1.any isBlank = false := by
  cases kind <;> rfl

/-- A term without its negation is read from just the texts that it may stand in. -/
theorem readBody_eq_ok_iff {kind : TermKind} {cs target rest : List Char} :
    readBody framedKinds cs = .ok (kind, target, rest) ↔
      cs = kind.frame.1 ++ target ++ kind.frame.2 ++ rest ∧ kind.Carries true target ∧
        (kind = .tag → EndsTag rest) := by
  constructor
  · intro h
    refine ⟨readBody_append h, ?_⟩
    by_cases hmark : ∃ kind ∈ framedKinds, kind.frame.1 <+: cs
    · obtain ⟨kind', hkind, opened, rfl⟩ := hmark
      rw [readBody_opened hkind, map_eq_ok_iff] at h
      obtain ⟨⟨target', rest'⟩, htarget, he⟩ := h
      simp only [Prod.mk.injEq] at he
      obtain ⟨rfl, rfl, rfl⟩ := he
      refine ⟨((readTarget_eq_ok_iff hkind).1 htarget).2, ?_⟩
      rintro rfl
      simp [framedKinds] at hkind
    · simp only [not_exists, not_and] at hmark
      rw [readBody_bare hmark, map_eq_ok_iff] at h
      obtain ⟨⟨tag, rest'⟩, htag, he⟩ := h
      simp only [Prod.mk.injEq] at he
      obtain ⟨rfl, rfl, rfl⟩ := he
      obtain ⟨rfl, hne, hblank, hends⟩ := readTag_eq_ok_iff.1 htag
      refine ⟨carries_tag_iff.2 ⟨hne, hblank, fun kind hkind hpre => ?_⟩, fun _ => hends⟩
      exact hmark kind hkind (hpre.trans (List.prefix_append tag rest'))
  · rintro ⟨rfl, hcarries, hends⟩
    by_cases hkind : kind ∈ framedKinds
    · rw [List.append_assoc, List.append_assoc, readBody_opened hkind, map_eq_ok_iff]
      refine ⟨(target, rest), (readTarget_eq_ok_iff hkind).2 ⟨by simp, hcarries⟩, rfl⟩
    · obtain rfl : kind = .tag := by cases kind <;> simp [framedKinds] at hkind ⊢
      obtain ⟨hne, hblank, hmarks⟩ := carries_tag_iff.1 hcarries
      have hbare : ∀ kind ∈ framedKinds, ¬ kind.frame.1 <+: target ++ rest := fun kind hkind h =>
        hmarks kind hkind (prefix_of_prefix_append (any_isBlank_opening kind) (hends rfl) h)
      simp only [TermKind.frame_tag, List.nil_append, List.append_nil]
      rw [readBody_bare hbare, map_eq_ok_iff]
      exact ⟨(target, rest), readTag_eq_ok_iff.2 ⟨rfl, hne, hblank, hends rfl⟩, rfl⟩

theorem readNegation_plain {cs : List Char} (h : ¬ "!".toList <+: cs) :
    readNegation cs = (false, cs) := by
  unfold readNegation
  split
  · next rest => exact absurd (List.prefix_append ['!'] rest) h
  · rfl

theorem not_prefix_of_readNegation {cs : List Char} (h : (readNegation cs).1 = false) :
    ¬ "!".toList <+: cs := by
  rintro ⟨rest, rfl⟩
  cases h

/-- Only for a bare tag does it matter whether the term is negated. -/
theorem carries_iff {kind : TermKind} {negated : Bool} {target : List Char} :
    kind.Carries negated target ↔ kind.Carries true target ∧
      (kind = .tag → negated = false → ¬ "!".toList <+: target) := by
  cases kind with
  | tag =>
    simp only [TermKind.Carries, Bool.true_eq_false, false_implies, and_true, true_implies]
    tauto
  | folder | link | outgoing => simp [TermKind.Carries]

/-- A term is read from just the texts that it may stand in, if it is readable. -/
theorem readTerm_eq_ok_iff {cs rest : List Char} {term : Term} :
    readTerm cs = .ok (term, rest) ↔
      cs = term.written ++ rest ∧ term.IsReadable ∧ (term.kind = .tag → EndsTag rest) := by
  constructor
  · intro h
    refine ⟨readTerm_append h, ?_⟩
    rw [readTerm, map_eq_ok_iff] at h
    obtain ⟨⟨kind, target, rest'⟩, hbody, he⟩ := h
    simp only [Prod.mk.injEq] at he
    obtain ⟨rfl, rfl⟩ := he
    obtain ⟨hcs, hcarries, hends⟩ := readBody_eq_ok_iff.1 hbody
    refine ⟨?_, hends⟩
    simp only [Term.IsReadable, String.toList_ofList]
    refine carries_iff.2 ⟨hcarries, ?_⟩
    rintro rfl hplain hpre
    have happend := readNegation_append cs
    rw [hplain, hcs] at happend
    refine not_prefix_of_readNegation hplain (hpre.trans ?_)
    simp [← happend]
  · rintro ⟨rfl, hreadable, hends⟩
    obtain ⟨hcarries, hbang⟩ := carries_iff.1 hreadable
    have hbody := readBody_eq_ok_iff.2 ⟨rfl, hcarries, hends⟩
    obtain ⟨kind, target, negated⟩ := term
    have hneg : readNegation (Term.written ⟨kind, target, negated⟩ ++ rest) =
        (negated, kind.frame.1 ++ target.toList ++ kind.frame.2 ++ rest) := by
      cases negated with
      | true => simp [Term.written, readNegation]
      | false =>
        rw [readNegation_plain]
        · simp [Term.written]
        · intro hpre
          cases kind with
          | tag =>
            simp only [Term.written, TermKind.frame_tag, Bool.false_eq_true, if_false,
              List.nil_append, List.append_nil] at hpre
            exact hbang rfl rfl (prefix_of_prefix_append rfl (hends rfl) hpre)
          | folder | link | outgoing => simp [Term.written] at hpre
    rw [readTerm, hneg]
    simp only
    rw [map_eq_ok_iff]
    exact ⟨_, hbody, by simp⟩

end NoteSearch.Query

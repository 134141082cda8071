import Mathlib.Data.List.TakeDrop
import NoteSearch.Toml.Scalar

/-!
# Plain values are read as they were written

A number in decimal digits, without zeros before it, is read back if it fits into a signed word, and
so are the truth values.
-/
namespace NoteSearch

namespace Decimal

variable {n : Nat} {c : Char}

theorem isDigit_of_mem_digits (h : c ∈ digits n) : isDigit c = true := by
  have hdigit := Nat.isDigit_of_mem_toDigits (by decide) (by decide) h
  simpa [Char.isDigit, isDigit, Char.le_def] using hdigit

theorem value_digits (n : Nat) : value (digits n) = n := by
  have hvalue := Nat.ofDigitChars_ten_toDigits (n := n)
  rw [Nat.ofDigitChars_eq_foldl] at hvalue
  simpa only [value, readFrom, digits, Nat.mul_comm] using hvalue

theorem digits_ne_nil (n : Nat) : digits n ≠ [] := Nat.toDigits_ne_nil

/-- Only zero starts with a zero. -/
theorem eq_zero_of_head?_digits (h : (digits n).head? = some '0') : n = 0 := by
  have hsmall : ∀ n < 10, Nat.digitChar n = '0' → n = 0 := by decide
  induction n using Nat.strongRecOn with
  | ind n ih =>
    rw [digits, Nat.toDigits_eq_if (by decide)] at h
    split at h
    · next hlt =>
      exact hsmall n hlt (Option.some.inj h)
    · next hlarge =>
      obtain ⟨c, cs, hcs⟩ := List.exists_cons_of_ne_nil (digits_ne_nil (n / 10))
      have hhead : (digits (n / 10)).head? = some '0' := by
        rw [digits] at hcs
        rw [hcs] at h
        rwa [digits, hcs]
      have hzero := ih (n / 10) (by omega) hhead
      omega

end Decimal

namespace Toml
open Decimal

variable {n : Nat}

/-- Digits without underscores between them stay as they are. -/
theorem underscored_of_all {isDigit : Char → Bool} (hbar : isDigit '_' = false) {ds : List Char}
    (hall : ∀ c ∈ ds, isDigit c = true) (hne : ds ≠ []) : underscored isDigit ds = some ds := by
  fun_induction underscored isDigit ds with
  | case1 => exact absurd rfl hne
  | case2 c hc => rfl
  | case3 c hc => simp [hall c] at hc
  | case4 c cs hc ih => simp [hbar] at hall
  | case5 c cs hc => simp [hbar] at hall
  | case6 c cs hnext hbarless hc ih =>
    rw [ih (fun c hmem => hall c (List.mem_cons_of_mem _ hmem)) hnext]
    rfl
  | case7 c cs hnext hbarless hc => simp [hall c] at hc

theorem wholeDigits_digits (n : Nat) : wholeDigits (digits n) = some (digits n) := by
  rw [wholeDigits, underscored_of_all (by decide) (fun c => isDigit_of_mem_digits)
    (digits_ne_nil n), Option.filter_some, if_pos]
  by_cases hzero : n = 0
  · subst hzero
    rfl
  · have hhead : (digits n).head? ≠ some '0' := fun h => hzero (eq_zero_of_head?_digits h)
    simp [hhead]

theorem readWhole_digits (n : Nat) : readWhole (digits n) = some (n : Int) := by
  have hdigit : ∀ c ∈ digits n, isDigit c = true := fun c => isDigit_of_mem_digits
  have hwhole := wholeDigits_digits n
  have hvalue := value_digits n
  -- the number starts neither with a sign nor with the mark of another base
  unfold readWhole
  split
  · next hds => simp [hds, isDigit] at hdigit
  · next hds => simp [hds, isDigit] at hdigit
  · next hds => simp [hds, isDigit] at hdigit
  · have hsign : readSign (digits n) = (false, digits n) := by
      unfold readSign
      split
      · next hds => simp [hds, isDigit] at hdigit
      · next hds => simp [hds, isDigit] at hdigit
      · rfl
    simp [hsign, hwhole, hvalue]

theorem readPlain_digits (h : n < signedLimit) : readPlain (digits n) = some (.integer n) := by
  have hdigit : ∀ c ∈ digits n, isDigit c = true := fun c => isDigit_of_mem_digits
  have hinteger : readInteger (digits n) = some (n : Int) := by
    rw [readInteger, readWhole_digits, Option.filter_some, if_pos]
    simp only [Bool.and_eq_true, decide_eq_true_eq]
    omega
  have htrue : digits n ≠ "true".toList := fun h => by simp [h, isDigit] at hdigit
  have hfalse : digits n ≠ "false".toList := fun h => by simp [h, isDigit] at hdigit
  rw [readPlain, if_neg htrue, if_neg hfalse, hinteger]

/-- A plain value goes up to the end of its line. -/
theorem plainAt_line {plain : List Char} {v : Value} (hplain : ∀ c ∈ plain, endsPlain c = false)
    (hread : readPlain plain = some v) (rest : List Char) :
    plainAt (plain ++ '\n' :: rest) = some (v, '\n' :: rest) := by
  have hspan : (plain ++ '\n' :: rest).span (!endsPlain ·) = (plain, '\n' :: rest) := by
    rw [List.span_eq_takeWhile_dropWhile, List.takeWhile_append_of_pos (by simpa using hplain),
      List.dropWhile_append_of_pos (by simpa using hplain)]
    simp [endsPlain]
  rw [plainAt, hspan]
  change (readPlain plain).map (·, '\n' :: rest) = _
  rw [hread, Option.map_some]

theorem not_endsPlain_of_isDigit {c : Char} (h : isDigit c = true) : endsPlain c = false := by
  simp only [endsPlain, Bool.or_eq_false_iff, beq_eq_false_iff_ne, ne_eq]
  refine ⟨⟨⟨⟨⟨⟨⟨?_, ?_⟩, ?_⟩, ?_⟩, ?_⟩, ?_⟩, ?_⟩, ?_⟩ <;>
  · rintro rfl
    cases h

end Toml
end NoteSearch

import NoteSearch.Text.Utf8

/-!
# Text is read from its own bytes

The bytes of a text are well formed, so that nothing in them is replaced: what is read from them is
the text again. There are as many of them as the text is long in UTF-8.
-/
namespace NoteSearch.Text

/-! ## The bytes of a text -/

theorem toList_loop_eq (bytes : ByteArray) (i : Nat) (before : List UInt8) :
    ByteArray.toList.loop bytes i before = before.reverse ++ bytes.data.toList.drop i := by
  fun_induction ByteArray.toList.loop bytes i before with
  | case1 i before h ih =>
    have hi : i < bytes.data.toList.length := by simpa using h
    rw [ih, List.drop_eq_getElem_cons hi]
    simp [ByteArray.get!, h]
  | case2 i before h =>
    rw [List.drop_eq_nil_of_le (by simpa using Nat.le_of_not_lt h)]
    simp

theorem toList_eq (bytes : ByteArray) : bytes.toList = bytes.data.toList := by
  simp [ByteArray.toList, toList_loop_eq]

theorem toBytes_eq (s : String) : toBytes s = s.toList.flatMap String.utf8EncodeChar := by
  rw [toBytes, toList_eq, String.toUTF8_eq_toByteArray]
  conv => lhs; rw [← @String.ofList_toList s]
  exact List.toList_data_toByteArray

theorem length_toBytes (s : String) : (toBytes s).length = s.utf8ByteSize := by
  rw [toBytes, toList_eq]
  rfl

/-! ## Reading one character -/

namespace Utf8

theorem readFrom_ofNat (begun : Option Begun) {b : Nat} (hb : b < 256) (rest : List UInt8) :
    readFrom begun (UInt8.ofNat b :: rest) =
      (step begun b).1 ++ readFrom (step begun b).2 rest := by
  have hbyte : (UInt8.ofNat b).toNat = b := by
    rw [UInt8.toNat_ofNat']
    exact Nat.mod_eq_of_lt hb
  rw [readFrom, hbyte]

/-- A byte that may begin a longer form leaves it begun. -/
theorem step_of_lead {b missing low high : Nat} (hb : 0x80 ≤ b)
    (h : lead b = some (missing, low, high)) :
    step none b = ([], some ⟨b % Nat.pow 2 (6 - missing), missing, low, high⟩) := by
  rw [step, start, if_neg (by omega), h]

/-- A byte that may go on does. -/
theorem step_of_more {bits missing low high b : Nat} (h : low ≤ b ∧ b ≤ high) :
    step (some ⟨bits, missing + 2, low, high⟩) b =
      ([], some ⟨bits * 64 + b % 64, missing + 1, 0x80, 0xBF⟩) := by
  rw [step, if_pos h, if_neg (by simp)]
  rfl

/-- The last byte completes the character. -/
theorem step_of_last {bits low high b : Nat} (h : low ≤ b ∧ b ≤ high) :
    step (some ⟨bits, 1, low, high⟩) b = ([Char.ofNat (bits * 64 + b % 64)], none) := by
  rw [step, if_pos h, if_pos (by simp)]

theorem lead_of_two {b : Nat} (h : 0xC2 ≤ b ∧ b ≤ 0xDF) : lead b = some (1, 0x80, 0xBF) := by
  rw [lead, if_pos h]

/-- What a form of three bytes begins with asks for a second byte that shows neither an overlong
form nor a surrogate. -/
theorem exists_lead_of_three {v : Nat} (hlow : 0x7FF < v) (hhigh : v ≤ 0xFFFF)
    (hvalid : v < 0xD800 ∨ 0xDFFF < v) :
    ∃ low high, lead (v / 4096 % 16 + 0xE0) = some (2, low, high) ∧
      low ≤ v / 64 % 64 + 0x80 ∧ v / 64 % 64 + 0x80 ≤ high := by
  unfold lead
  rw [if_neg (by omega)]
  split
  · exact ⟨_, _, rfl, by omega⟩
  · split
    · exact ⟨_, _, rfl, by omega⟩
    · rw [if_pos (by omega)]
      exact ⟨_, _, rfl, by omega⟩

/-- What a form of four bytes begins with asks for a second byte that shows neither an overlong
form nor a value too large. -/
theorem exists_lead_of_four {v : Nat} (hlow : 0xFFFF < v) (hhigh : v ≤ 0x10FFFF) :
    ∃ low high, lead (v / 262144 % 8 + 0xF0) = some (3, low, high) ∧
      low ≤ v / 4096 % 64 + 0x80 ∧ v / 4096 % 64 + 0x80 ≤ high := by
  unfold lead
  rw [if_neg (by omega), if_neg (by omega), if_neg (by omega), if_neg (by omega)]
  split
  · exact ⟨_, _, rfl, by omega⟩
  · split
    · exact ⟨_, _, rfl, by omega⟩
    · rw [if_pos (by omega)]
      exact ⟨_, _, rfl, by omega⟩

/-- The bytes of a character are read as this character. -/
theorem readFrom_utf8EncodeChar (c : Char) (rest : List UInt8) :
    readFrom none (String.utf8EncodeChar c ++ rest) = c :: readFrom none rest := by
  have hvalid : c.val.toNat < 0xD800 ∨ 0xDFFF < c.val.toNat ∧ c.val.toNat < 0x110000 := c.valid
  have hchar : Char.ofNat c.val.toNat = c := Char.ofNat_toNat c
  generalize hv : c.val.toNat = v at hvalid hchar
  unfold String.utf8EncodeChar
  rw [hv]
  dsimp only
  split
  · rw [List.singleton_append, readFrom_ofNat none (by omega), step, start, if_pos (by omega),
      hchar]
    rfl
  split
  · have hlast : v % 64 + 0x80 ≤ 0xBF := by omega
    have hbits : (v / 64 % 32 + 0xC0) % Nat.pow 2 (6 - 1) * 64 + (v % 64 + 0x80) % 64 = v := by
      change (v / 64 % 32 + 0xC0) % 32 * 64 + (v % 64 + 0x80) % 64 = v
      omega
    rw [List.cons_append, List.singleton_append, readFrom_ofNat none (by omega),
      step_of_lead (by omega) (lead_of_two (by omega)), readFrom_ofNat _ (by omega),
      step_of_last ⟨by omega, hlast⟩, hbits, hchar]
    rfl
  split
  · obtain ⟨low, high, hlead, hsecond⟩ :=
      @exists_lead_of_three v (by omega) (by omega) (by omega)
    have hlast : v % 64 + 0x80 ≤ 0xBF := by omega
    have hbits : ((v / 4096 % 16 + 0xE0) % Nat.pow 2 (6 - 2) * 64 +
        (v / 64 % 64 + 0x80) % 64) * 64 + (v % 64 + 0x80) % 64 = v := by
      change ((v / 4096 % 16 + 0xE0) % 16 * 64 + (v / 64 % 64 + 0x80) % 64) * 64 +
        (v % 64 + 0x80) % 64 = v
      omega
    rw [List.cons_append, List.cons_append, List.singleton_append, readFrom_ofNat none (by omega),
      step_of_lead (by omega) hlead, readFrom_ofNat _ (by omega), step_of_more hsecond,
      readFrom_ofNat _ (by omega), step_of_last ⟨by omega, hlast⟩, hbits, hchar]
    rfl
  · obtain ⟨low, high, hlead, hsecond⟩ := @exists_lead_of_four v (by omega) (by omega)
    have hthird : v / 64 % 64 + 0x80 ≤ 0xBF := by omega
    have hlast : v % 64 + 0x80 ≤ 0xBF := by omega
    have hbits : (((v / 262144 % 8 + 0xF0) % Nat.pow 2 (6 - 3) * 64 +
        (v / 4096 % 64 + 0x80) % 64) * 64 + (v / 64 % 64 + 0x80) % 64) * 64 +
          (v % 64 + 0x80) % 64 = v := by
      change (((v / 262144 % 8 + 0xF0) % 8 * 64 + (v / 4096 % 64 + 0x80) % 64) * 64 +
        (v / 64 % 64 + 0x80) % 64) * 64 + (v % 64 + 0x80) % 64 = v
      omega
    rw [List.cons_append, List.cons_append, List.cons_append, List.singleton_append,
      readFrom_ofNat none (by omega), step_of_lead (by omega) hlead, readFrom_ofNat _ (by omega),
      step_of_more hsecond, readFrom_ofNat _ (by omega), step_of_more ⟨by omega, hthird⟩,
      readFrom_ofNat _ (by omega), step_of_last ⟨by omega, hlast⟩, hbits, hchar]
    rfl

theorem readFrom_flatMap (cs : List Char) :
    readFrom none (cs.flatMap String.utf8EncodeChar) = cs := by
  induction cs with
  | nil => rfl
  | cons c cs ih => rw [List.flatMap_cons, readFrom_utf8EncodeChar, ih]

end Utf8

/-- A text is what is read from its bytes. -/
theorem ofBytes_toBytes (s : String) : ofBytes (toBytes s) = s := by
  rw [ofBytes, toBytes_eq, Utf8.readFrom_flatMap, String.ofList_toList]

end NoteSearch.Text

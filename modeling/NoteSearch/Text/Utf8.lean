/-!
# Reading bytes as text

UTF-8 with replacement: every maximal ill-formed part of the bytes is read as one
replacement character, so any bytes can be read. A part is cut off at the first byte that cannot
continue the character begun; overlong forms, surrogates and values beyond the last scalar value
are refused at their second byte.
-/
namespace NoteSearch.Text

/-- The length of the form that a first byte announces, and the range of its second byte. -/
def Utf8.lead (b : Nat) : Option (Nat × Nat × Nat) :=
  if 0xC2 ≤ b ∧ b ≤ 0xDF then some (1, 0x80, 0xBF)
  else if b = 0xE0 then some (2, 0xA0, 0xBF)
  else if b = 0xED then some (2, 0x80, 0x9F)
  else if 0xE1 ≤ b ∧ b ≤ 0xEF then some (2, 0x80, 0xBF)
  else if b = 0xF0 then some (3, 0x90, 0xBF)
  else if 0xF1 ≤ b ∧ b ≤ 0xF3 then some (3, 0x80, 0xBF)
  else if b = 0xF4 then some (3, 0x80, 0x8F)
  else none

/-- A character begun: its bits so far, how many bytes are missing, and the range of the next. -/
structure Utf8.Begun where
  bits : Nat
  missing : Nat
  low : Nat
  high : Nat

/-- A byte that no begun character waits for. -/
def Utf8.start (b : Nat) : List Char × Option Utf8.Begun :=
  if b < 0x80 then ([Char.ofNat b], none)
  else
    match Utf8.lead b with
    | some (missing, low, high) =>
      ([], some ⟨b % Nat.pow 2 (6 - missing), missing, low, high⟩)
    | none => (['\uFFFD'], none)

/-- One byte: the characters that it completes, and the character that it leaves begun. -/
def Utf8.step (begun : Option Utf8.Begun) (b : Nat) : List Char × Option Utf8.Begun :=
  match begun with
  | none => Utf8.start b
  | some g =>
    if g.low ≤ b ∧ b ≤ g.high then
      let bits := g.bits * 64 + b % 64
      if g.missing ≤ 1 then ([Char.ofNat bits], none)
      else ([], some ⟨bits, g.missing - 1, 0x80, 0xBF⟩)
    else
      let (cs, next) := Utf8.start b
      ('\uFFFD' :: cs, next)

/-- The bytes as text, from a character begun. -/
def Utf8.readFrom (begun : Option Utf8.Begun) : List UInt8 → List Char
  | [] => if begun.isSome then ['\uFFFD'] else []
  | b :: bytes =>
    let (cs, next) := Utf8.step begun b.toNat
    cs ++ Utf8.readFrom next bytes

/-- The bytes as text, each ill-formed part replaced. -/
def ofBytes (bytes : List UInt8) : String := String.ofList (Utf8.readFrom none bytes)

/-- The UTF-8 form of a string. -/
def toBytes (s : String) : List UInt8 := s.toUTF8.toList

end NoteSearch.Text

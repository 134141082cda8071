import NoteSearch.Decimal.Digits

/-!
# Double precision numbers

A finite double is a sign and `mantissa * 2 ^ exponent` with a mantissa of at most 53 bits; all
its arithmetic here is exact arithmetic of natural numbers. A quotient is rounded to the nearest
double, a tie to the even mantissa. A double is written with the fewest digits that are
read back as the same double, and of those the nearest, in positional notation.
-/
namespace NoteSearch.Decimal

/-- A double precision number. -/
inductive Binary64 where
  | nan
  | infinite (negative : Bool)
  | finite (negative : Bool) (mantissa : Nat) (exponent : Int)
  deriving Repr, DecidableEq

namespace Binary64

/-- The least mantissa of 53 bits. -/
def leastFull : Nat := Nat.pow 2 52

/-- Numerator and denominator of `n * base ^ exponent`. -/
def scaled (n base : Nat) (exponent : Int) : Nat × Nat :=
  if 0 ≤ exponent then (n * Nat.pow base exponent.toNat, 1)
  else (n, Nat.pow base (-exponent).toNat)

/-- The quotient rounded to a whole number, a half going to the even neighbour. -/
def roundHalfEven (num den : Nat) : Nat :=
  let q := num / den
  let r := num % den
  if 2 * r < den ∨ (2 * r = den ∧ q % 2 = 0) then q else q + 1

/-- The exponent of the least bit of the double nearest to a positive quotient. -/
def leastBit (num den : Nat) : Int :=
  let guess : Int := (num.log2 : Int) - den.log2 - 52
  let (n, d) := scaled 1 2 (-guess)
  let exponent := if num * n < leastFull * (den * d) then guess - 1 else guess
  max exponent (-1074)

/-- The double nearest to a quotient. -/
def nearest (negative : Bool) (num den : Nat) : Binary64 :=
  if num = 0 then .finite negative 0 (-1074)
  else
    let exponent := leastBit num den
    let (n, d) := scaled 1 2 (-exponent)
    let mantissa := roundHalfEven (num * n) (den * d)
    let (mantissa, exponent) :=
      if mantissa = 2 * leastFull then (leastFull, exponent + 1) else (mantissa, exponent)
    if 971 < exponent then .infinite negative else .finite negative mantissa exponent

/-- The double nearest to `n * 10 ^ exponent`. Magnitudes far outside the range of doubles are
decided by the number of digits alone. -/
def ofDecimal (negative : Bool) (n : Nat) (exponent : Int) : Binary64 :=
  let magnitude : Int := (digits n).length + exponent
  if n = 0 ∨ magnitude < -400 then .finite negative 0 (-1074)
  else if 400 < magnitude then .infinite negative
  else
    let (num, den) := scaled n 10 exponent
    nearest negative num den

/-- Whether the number is a zero of either sign. -/
def isZero : Binary64 → Bool
  | .finite _ mantissa _ => mantissa == 0
  | _ => false

/-- The nearest unsigned 64-bit word, a half going away from zero: numbers below zero and those
that are no number give zero, and numbers beyond the last word give the last word. -/
def toWord : Binary64 → Nat
  | .nan => 0
  | .infinite negative => if negative then 0 else wordLimit - 1
  | .finite negative mantissa exponent =>
    let (num, den) := scaled mantissa 2 exponent
    if negative then 0 else min ((2 * num + den) / (2 * den)) (wordLimit - 1)

/-- The least `k` with `num / den < 10 ^ k`, for a positive quotient. -/
def decimalPlace (num den : Nat) : Int :=
  if den ≤ num then (digits (num / den)).length
  else
    let inverse := (digits (den / num)).length
    if den ≤ num * Nat.pow 10 (inverse - 1) then 2 - (inverse : Int) else 1 - (inverse : Int)

/-- The multiple of `10 ^ place` that is nearest to `num / den` among its two neighbours on that
grid and lies between the bounds, which are in the same units as `num`. Halfway between the two it
is the upper one. -/
def onGrid? (low num high den : Nat) (closed : Bool) (place : Int) : Option Nat :=
  let (up, down) := scaled 1 10 place
  let unit := den * up
  let floor := num * down / unit
  let inside (n : Nat) : Bool :=
    let v := n * unit
    if closed then low * down ≤ v && v ≤ high * down else low * down < v && v < high * down
  let below := num * down - floor * unit
  match inside floor, inside (floor + 1) with
  | true, true =>
    if 2 * below < unit then some floor else some (floor + 1)
  | true, false => some floor
  | false, true => some (floor + 1)
  | false, false => none

/-- The first grid, from the given number of digits on, that has a hit. -/
def firstGrid (low num high den : Nat) (closed : Bool) (top : Int) : (fuel count : Nat) → Nat × Int
  | 0, count =>
    let place := top - count
    ((onGrid? low num high den closed place).getD 0, place)
  | fuel + 1, count =>
    let place := top - count
    match onGrid? low num high den closed place with
    | some n => (n, place)
    | none => firstGrid low num high den closed top fuel (count + 1)

/-- The decimal `n * 10 ^ place` with the fewest digits that reads back as the positive double
`mantissa * 2 ^ exponent`. Bounds are taken in quarters of the mantissa's unit, since a
power of two has its lower neighbour at half the distance. -/
def shortest (mantissa : Nat) (exponent : Int) : Nat × Int :=
  let (num, den) := scaled 1 2 (exponent - 2)
  let value := 4 * mantissa * num
  let low := if mantissa = leastFull ∧ -1074 < exponent then 4 * mantissa - 1 else 4 * mantissa - 2
  let high := 4 * mantissa + 2
  firstGrid (low * num) value (high * num) den (mantissa % 2 == 0) (decimalPlace value den) 17 1

/-- A decimal `n * 10 ^ place` in positional notation, without trailing zeros after the point. -/
def positional (n : Nat) (place : Int) : List Char :=
  if 0 ≤ place then
    if n = 0 then ['0'] else digits n ++ List.replicate place.toNat '0'
  else
    let count := (-place).toNat
    let all := padded (count + 1) n
    let whole := all.take (all.length - count)
    let part := ((all.drop (all.length - count)).reverse.dropWhile (· == '0')).reverse
    if part.isEmpty then whole else whole ++ '.' :: part

/-- The number as text. -/
def text : Binary64 → String
  | .nan => "NaN"
  | .infinite negative => if negative then "-inf" else "inf"
  | .finite negative mantissa exponent =>
    let magnitude := if mantissa = 0 then ['0'] else
      let (n, place) := shortest mantissa exponent
      positional n place
    String.ofList (if negative then '-' :: magnitude else magnitude)

end Binary64
end NoteSearch.Decimal

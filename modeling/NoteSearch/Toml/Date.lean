import NoteSearch.Decimal.Digits

/-!
# Dates and times in TOML

A date, a time of day, or both together, then perhaps with the distance to universal time. Each
part has to be in its range, and a time may do without its seconds. The plainest form has a `T`
between date and time, a `Z` for universal time, and no zeros at the end of a fraction, of which
nine digits count.
-/
namespace NoteSearch.Toml.Date
open Decimal

/-- A number of exactly so many digits. -/
def number (width : Nat) (cs : List Char) : Option (Nat × List Char) :=
  let run := cs.take width
  if run.length = width && run.all isDigit then some (value run, cs.drop width) else none

/-- A certain character. -/
def mark (c : Char) : List Char → Option (List Char)
  | d :: cs => if d = c then some cs else none
  | [] => none

/-- A year with a day that others do not have. -/
def isLeap (year : Nat) : Bool := year % 4 = 0 && (year % 100 ≠ 0 || year % 400 = 0)

/-- The number of days in a month. -/
def daysIn (year month : Nat) : Nat :=
  if month = 2 then (if isLeap year then 29 else 28)
  else if month = 4 ∨ month = 6 ∨ month = 9 ∨ month = 11 then 30
  else 31

/-- Year, month and day, written with hyphens between. -/
def day (cs : List Char) : Option (List Char × List Char) := do
  let (year, cs) ← number 4 cs
  let cs ← mark '-' cs
  let (month, cs) ← number 2 cs
  let cs ← mark '-' cs
  let (day, cs) ← number 2 cs
  if 1 ≤ month ∧ month ≤ 12 ∧ 1 ≤ day ∧ day ≤ daysIn year month then
    some (padded 4 year ++ '-' :: padded 2 month ++ '-' :: padded 2 day, cs)
  else none

/-- A fraction without the zeros at its end, but with one digit at least. -/
def trimmedFraction (run : List Char) : List Char :=
  let kept := ((run.take 9).reverse.dropWhile (· == '0')).reverse
  '.' :: if kept.isEmpty then ['0'] else kept

/-- The fraction of a second, if there is one. -/
def fraction : List Char → Option (List Char × List Char)
  | '.' :: cs =>
    let (run, rest) := cs.span isDigit
    if run.isEmpty then none else some (trimmedFraction run, rest)
  | cs => some ([], cs)

/-- The second behind a colon, with its fraction, if there is one. -/
def second : List Char → Option (List Char × List Char)
  | ':' :: cs => do
    let (second, cs) ← number 2 cs
    let (part, cs) ← fraction cs
    if second ≤ 60 then some (':' :: padded 2 second ++ part, cs) else none
  | cs => some ([], cs)

/-- Hour, minute and perhaps second, written with colons between. -/
def time (cs : List Char) : Option (List Char × List Char) := do
  let (hour, cs) ← number 2 cs
  let cs ← mark ':' cs
  let (minute, cs) ← number 2 cs
  let (second, cs) ← second cs
  if hour ≤ 23 ∧ minute ≤ 59 then
    some (padded 2 hour ++ ':' :: padded 2 minute ++ second, cs)
  else none

/-- The distance to universal time, if there is one. -/
def offset : List Char → Option (List Char)
  | [] => some []
  | ['Z'] | ['z'] => some ['Z']
  | sign :: cs => do
    if sign ≠ '+' ∧ sign ≠ '-' then none
    let (hour, cs) ← number 2 cs
    let cs ← mark ':' cs
    let (minute, cs) ← number 2 cs
    if cs.isEmpty ∧ hour ≤ 23 ∧ minute ≤ 59 then
      let sign := if hour = 0 ∧ minute = 0 then '+' else sign
      some (sign :: padded 2 hour ++ ':' :: padded 2 minute)
    else none

/-- The plainest form of a date, a time, or both. -/
def read (cs : List Char) : Option (List Char) :=
  match time cs with
  | some (time, []) => some time
  | _ =>
    match day cs with
    | some (day, []) => some day
    | some (day, c :: cs) => do
      if c ≠ 'T' ∧ c ≠ 't' ∧ c ≠ ' ' then none
      let (time, cs) ← time cs
      some (day ++ 'T' :: time ++ (← offset cs))
    | none => none

/-- The text is a date, after which a time may follow behind a space. -/
def isDay (cs : List Char) : Bool :=
  match day cs with
  | some (_, []) => true
  | _ => false

end NoteSearch.Toml.Date

import NoteSearch.Json.Value

/-!
# Reading JSON text

The text is one value with nothing but spaces, tabs and line ends around it. A backslash escape
of a surrogate counts as text only together with its other half.
-/
namespace NoteSearch.Json

/-- The blanks that may stand between the parts of a value. -/
def isSpace (c : Char) : Bool := c == ' ' || c == '\n' || c == '\t' || c == '\r'

def skipSpace (cs : List Char) : List Char := cs.dropWhile isSpace

/-- The value of a hexadecimal digit. -/
def hexDigit? (c : Char) : Option Nat :=
  if '0' ≤ c ∧ c ≤ '9' then some (c.toNat - '0'.toNat)
  else if 'a' ≤ c ∧ c ≤ 'f' then some (c.toNat - 'a'.toNat + 10)
  else if 'A' ≤ c ∧ c ≤ 'F' then some (c.toNat - 'A'.toNat + 10)
  else none

/-- The value of a run of hexadecimal digits. -/
def hexValue? (cs : List Char) : Option Nat :=
  cs.foldlM (fun n c => (hexDigit? c).map (n * 16 + ·)) 0

/-- A piece of a string: a character, or an escaped 16-bit unit. -/
inductive Piece where
  | char (c : Char)
  | unit (n : Nat)

/-- The character of a one-letter escape. -/
def plainEscape? : Char → Option Char
  | '"' => some '"'
  | '\\' => some '\\'
  | '/' => some '/'
  | 'b' => some '\x08'
  | 'f' => some '\x0c'
  | 'n' => some '\n'
  | 'r' => some '\r'
  | 't' => some '\t'
  | _ => none

/-- The pieces of a string up to its closing quote, the opening quote being read already. -/
def stringPieces : List Char → Option (List Piece × List Char)
  | '"' :: rest => some ([], rest)
  | '\\' :: 'u' :: a :: b :: c :: d :: rest =>
    match hexValue? [a, b, c, d], stringPieces rest with
    | some n, some (pieces, rest) => some (.unit n :: pieces, rest)
    | _, _ => none
  | '\\' :: c :: rest =>
    match plainEscape? c, stringPieces rest with
    | some c, some (pieces, rest) => some (.char c :: pieces, rest)
    | _, _ => none
  | c :: rest =>
    if c.toNat < 0x20 then none
    else (stringPieces rest).map fun (pieces, rest) => (.char c :: pieces, rest)
  | [] => none

/-- The text of the pieces, if every surrogate has its other half. -/
def textOf? : List Piece → Option (List Char)
  | [] => some []
  | .char c :: rest => (textOf? rest).map (c :: ·)
  | .unit high :: .unit low :: rest =>
    if 0xD800 ≤ high ∧ high < 0xDC00 then
      if 0xDC00 ≤ low ∧ low < 0xE000 then
        let c := Char.ofNat (0x10000 + (high - 0xD800) * 0x400 + (low - 0xDC00))
        (textOf? rest).map (c :: ·)
      else none
    else if 0xDC00 ≤ high ∧ high < 0xE000 then none
    else (textOf? (.unit low :: rest)).map (Char.ofNat high :: ·)
  | .unit n :: rest =>
    if 0xD800 ≤ n ∧ n < 0xE000 then none else (textOf? rest).map (Char.ofNat n :: ·)

/-- A string whose opening quote is read already. -/
def stringRest (cs : List Char) : Option (Json × List Char) :=
  (stringPieces cs).map fun (pieces, rest) =>
    match textOf? pieces with
    | some text => (.string (String.ofList text), rest)
    | none => (.broken, rest)

/-- One or more digits. -/
def digitRun (cs : List Char) : Option (List Char × List Char) :=
  match cs.span Decimal.isDigit with
  | ([], _) => none
  | (run, rest) => some (run, rest)

/-- The whole part of a number: a zero alone, or digits that do not start with one. -/
def wholePart (cs : List Char) : Option (List Char × List Char) :=
  match digitRun cs with
  | some ('0' :: _ :: _, _) => none
  | read => read

/-- The digits after a decimal point, if there is one. -/
def fractionPart : List Char → Option ((Option (List Char)) × List Char)
  | '.' :: rest => (digitRun rest).map fun (run, rest) => (some run, rest)
  | cs => some (none, cs)

/-- The exponent, if there is one. -/
def exponentPart : List Char → Option ((Option Int) × List Char)
  | c :: rest =>
    if c = 'e' ∨ c = 'E' then
      let (negative, rest) := match rest with
        | '-' :: rest => (true, rest)
        | '+' :: rest => (false, rest)
        | rest => (false, rest)
      (digitRun rest).map fun (run, rest) =>
        let n : Int := Decimal.value run
        (some (if negative then -n else n), rest)
    else some (none, c :: rest)
  | [] => some (none, [])

/-- A number, its sign included. -/
def numberAt (cs : List Char) : Option (Json × List Char) := do
  let (negative, cs) := match cs with
    | '-' :: rest => (true, rest)
    | cs => (false, cs)
  let (whole, cs) ← wholePart cs
  let (fraction, cs) ← fractionPart cs
  let (exponent, cs) ← exponentPart cs
  let part := fraction.getD []
  some (.number {
    negative
    mantissa := Decimal.value (whole ++ part)
    exponent := exponent.getD 0 - part.length
    integral := fraction.isNone && exponent.isNone }, cs)

/-- A word that stands for a value. -/
def wordAt (word : String) (value : Json) (cs : List Char) : Option (Json × List Char) :=
  if word.toList.isPrefixOf cs then some (value, cs.drop word.length) else none

/-- The rest of an array from an item on, each item read by `item`. -/
def itemsFrom (item : List Char → Option (Json × List Char)) :
    (fuel : Nat) → List Char → Option (List Json × List Char)
  | 0, _ => none
  | fuel + 1, cs => do
    let (value, cs) ← item cs
    match skipSpace cs with
    | ',' :: cs =>
      let (values, cs) ← itemsFrom item fuel cs
      some (value :: values, cs)
    | ']' :: cs => some ([value], cs)
    | _ => none

/-- The rest of an object from a field on, each value read by `item`. A name that is no text is
missing. -/
def fieldsFrom (item : List Char → Option (Json × List Char)) :
    (fuel : Nat) → List Char → Option (List (Option String × Json) × List Char)
  | 0, _ => none
  | fuel + 1, cs => do
    let '"' :: cs := skipSpace cs | none
    let (name, cs) ← stringRest cs
    let ':' :: cs := skipSpace cs | none
    let (value, cs) ← item cs
    match skipSpace cs with
    | ',' :: cs =>
      let (fields, cs) ← fieldsFrom item fuel cs
      some ((name.string?, value) :: fields, cs)
    | '}' :: cs => some ([(name.string?, value)], cs)
    | _ => none

/-- The object of some fields. -/
def ofFields (fields : List (Option String × Json)) : Json :=
  match fields.mapM fun (name, value) => name.map (·, value) with
  | some fields => .object fields
  | none => .broken

/-- A value, with spaces before it. Arrays and objects are read at most `fuel` deep. -/
def valueAt : (fuel : Nat) → List Char → Option (Json × List Char)
  | 0, _ => none
  | fuel + 1, cs =>
    match skipSpace cs with
    | '"' :: cs => stringRest cs
    | '[' :: cs =>
      match skipSpace cs with
      | ']' :: cs => some (.array [], cs)
      | cs => (itemsFrom (valueAt fuel) cs.length cs).map fun (items, cs) => (.array items, cs)
    | '{' :: cs =>
      match skipSpace cs with
      | '}' :: cs => some (.object [], cs)
      | cs =>
        (fieldsFrom (valueAt fuel) cs.length cs).map fun (fields, cs) => (ofFields fields, cs)
    | 't' :: cs => wordAt "true" (.bool true) ('t' :: cs)
    | 'f' :: cs => wordAt "false" (.bool false) ('f' :: cs)
    | 'n' :: cs => wordAt "null" .null ('n' :: cs)
    | cs => numberAt cs

/-- The value that a text writes. Every level of nesting takes a character, so the
length of the text bounds the depth. -/
def parse (s : String) : Option Json :=
  let cs := s.toList
  match valueAt (cs.length + 1) cs with
  | some (value, rest) => if (skipSpace rest).isEmpty then some value else none
  | none => none

end NoteSearch.Json

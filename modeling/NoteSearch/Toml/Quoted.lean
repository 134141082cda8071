import NoteSearch.Decimal.Digits

/-!
# Strings in TOML

A string is written in the plainest of the four forms that can hold it: between quotes, between
apostrophes, and then the same with three marks at either end. Only where none of these can hold
it as it is, characters are escaped.
-/
namespace NoteSearch.Toml

/-- A control character other than the tab. -/
def isControl (c : Char) : Bool := (c.toNat < 0x20 && c != '\t') || c.toNat = 0x7F

/-- What decides the form of a string. -/
structure Contents where
  newline : Bool := false
  backslash : Bool := false
  /-- A control character that no form can hold as it is. -/
  control : Bool := false
  /-- The longest run of quotes, and the one at the end so far. -/
  quotes : Nat × Nat := (0, 0)
  /-- The longest run of apostrophes, and the one at the end so far. -/
  apostrophes : Nat × Nat := (0, 0)

/-- A run with one character more. -/
def lengthened (run : Nat × Nat) (same : Bool) : Nat × Nat :=
  if same then (max run.1 (run.2 + 1), run.2 + 1) else (run.1, 0)

/-- The contents of a string. -/
def Contents.of (cs : List Char) : Contents :=
  cs.foldl (fun found c =>
    { newline := found.newline || c == '\n'
      backslash := found.backslash || c == '\\'
      control := found.control || (isControl c && c != '\n')
      quotes := lengthened found.quotes (c == '"')
      apostrophes := lengthened found.apostrophes (c == '\'') }) {}

/-- A hexadecimal digit in upper case. -/
def upperDigit (n : Nat) : Char := (Nat.digitChar n).toUpper

/-- A character by its number. -/
def escapedByNumber (c : Char) : List Char :=
  ['\\', 'u', '0', '0', upperDigit (c.toNat / 16), upperDigit (c.toNat % 16)]

/-- A character between quotes, quotes and line ends aside. -/
def escaped (c : Char) : List Char :=
  if c = '\\' then ['\\', '\\']
  else if c = '\x08' then ['\\', 'b']
  else if c = '\t' then ['\\', 't']
  else if c = '\x0c' then ['\\', 'f']
  else if c = '\r' then ['\\', 'r']
  else if isControl c then escapedByNumber c
  else [c]

/-- The text between single quotes. -/
def escapedLine (cs : List Char) : List Char :=
  cs.flatMap fun c => if c = '"' then ['\\', '"'] else if c = '\n' then ['\\', 'n'] else escaped c

/-- The text between triple quotes, after a run of quotes: the third quote of a run is escaped,
which starts a new run. -/
def escapedLines (run : Nat) : List Char → List Char
  | [] => []
  | c :: cs =>
    if c = '"' then
      if run < 2 then '"' :: escapedLines (run + 1) cs else '\\' :: '"' :: escapedLines 0 cs
    else if c = '\n' then '\n' :: escapedLines 0 cs
    else escaped c ++ escapedLines 0 cs

/-- A text between marks. -/
def between (mark text : List Char) : List Char := mark ++ text ++ mark

/-- A text with a line end before it, if it has line ends of its own. -/
def onLines (found : Contents) (text : List Char) : List Char :=
  if found.newline then '\n' :: text else text

/-- A string in its form. -/
def quoted (cs : List Char) : List Char :=
  let found := Contents.of cs
  let quote := ['"']
  let apostrophe := ['\'']
  let quotes := List.replicate 3 '"'
  let apostrophes := List.replicate 3 '\''
  if !found.control && !found.backslash && found.quotes.1 = 0 && !found.newline then
    between quote (escapedLine cs)
  else if !found.control && found.apostrophes.1 = 0 && !found.newline then between apostrophe cs
  else if !found.control && !found.backslash && found.quotes.1 ≤ 2 then
    between quotes (onLines found (escapedLines 0 cs))
  else if !found.control && found.apostrophes.1 ≤ 2 then between apostrophes (onLines found cs)
  else if found.newline then between quotes (onLines found (escapedLines 0 cs))
  else between quote (escapedLine cs)

end NoteSearch.Toml

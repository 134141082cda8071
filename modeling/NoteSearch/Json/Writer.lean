import NoteSearch.Json.Value

/-!
# Writing JSON text

Two layouts: the compact one, without blanks, and the indented one, with two spaces for each
level and a field or an item on each line. Quotes, backslashes and control characters
are escaped; all else stands for itself.
-/
namespace NoteSearch.Json

/-- A hexadecimal digit in lower case. -/
def hexDigit (n : Nat) : Char := Nat.digitChar n

/-- A character inside quotes. -/
def escaped (c : Char) : List Char :=
  if c = '"' then ['\\', '"']
  else if c = '\\' then ['\\', '\\']
  else if c = '\n' then ['\\', 'n']
  else if c = '\r' then ['\\', 'r']
  else if c = '\t' then ['\\', 't']
  else if c = '\x08' then ['\\', 'b']
  else if c = '\x0c' then ['\\', 'f']
  else if c.toNat < 0x20 then
    ['\\', 'u', '0', '0', hexDigit (c.toNat / 16), hexDigit (c.toNat % 16)]
  else [c]

/-- A text in quotes. -/
def quoted (s : String) : List Char := '"' :: s.toList.flatMap escaped ++ ['"']

/-- A number: the sign, the mantissa, and the power of ten if it is not the zeroth. -/
def Number.write (n : Number) : List Char :=
  (if n.negative then ['-'] else []) ++ Decimal.digits n.mantissa ++
    if n.exponent = 0 then []
    else 'e' :: (if n.exponent < 0 then ['-'] else []) ++ Decimal.digits n.exponent.natAbs

/-- A list of written parts between brackets, with commas between neighbours. -/
def bracketed (opening closing : Char) (parts : List (List Char)) : List Char :=
  opening :: [','].intercalate parts ++ [closing]

mutual
/-- The compact layout. -/
def write : Json → List Char
  | .null => "null".toList
  | .bool b => if b then "true".toList else "false".toList
  | .number n => n.write
  | .string s => quoted s
  | .broken => quoted ""
  | .array items => bracketed '[' ']' (writeItems items)
  | .object fields => bracketed '{' '}' (writeFields fields)

/-- The items of an array. -/
def writeItems : List Json → List (List Char)
  | [] => []
  | item :: items => write item :: writeItems items

/-- The fields of an object. -/
def writeFields : List (String × Json) → List (List Char)
  | [] => []
  | (name, value) :: fields => (quoted name ++ ':' :: write value) :: writeFields fields
end

/-- The compact text of a value. -/
def compact (v : Json) : String := String.ofList v.write

/-- A list of written parts between brackets, each on a line of its own. -/
def lined (opening closing : Char) (level : Nat) (parts : List (List Char)) : List Char :=
  let indent (n : Nat) := '\n' :: List.replicate (2 * n) ' '
  if parts.isEmpty then [opening, closing]
  else
    opening :: [','].intercalate (parts.map (indent (level + 1) ++ ·)) ++ indent level ++ [closing]

mutual
/-- The indented layout, at a level of nesting. -/
def writeLined (level : Nat) : Json → List Char
  | .array items => lined '[' ']' level (linedItems (level + 1) items)
  | .object fields => lined '{' '}' level (linedFields (level + 1) fields)
  | .null => write .null
  | .bool b => write (.bool b)
  | .number n => write (.number n)
  | .string s => write (.string s)
  | .broken => write .broken

/-- The items of an array. -/
def linedItems (level : Nat) : List Json → List (List Char)
  | [] => []
  | item :: items => writeLined level item :: linedItems level items

/-- The fields of an object. -/
def linedFields (level : Nat) : List (String × Json) → List (List Char)
  | [] => []
  | (name, value) :: fields =>
    (quoted name ++ ':' :: ' ' :: writeLined level value) :: linedFields level fields
end

/-- The indented text of a value. -/
def pretty (v : Json) : String := String.ofList (v.writeLined 0)

end NoteSearch.Json

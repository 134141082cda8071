import NoteSearch.Toml.Outline
import NoteSearch.Toml.Scalar
import NoteSearch.Toml.Text

/-!
# Reading TOML documents

A document consists of lines, each with a key and its value, with the header of a table, or with
nothing; a comment may end any line. Arrays and tables in braces may go over several lines, and a
comma may stand behind their last item.
-/
namespace NoteSearch.Toml
open Outline (Fields)

/-- How deep values may be nested. -/
def nestingLimit : Nat := 80

/-- How many parts a key may have. -/
def keyLimit : Nat := 80

def skipGap (cs : List Char) : List Char := cs.dropWhile isGap

/-- A character of a bare key. -/
def isBareKey (c : Char) : Bool := c.isAlphanum || c == '_' || c == '-'

/-- One part of a key. -/
def keyPart (cs : List Char) : Option (String × List Char) :=
  match cs.span isBareKey with
  | ([], _) => lineString cs
  | (name, rest) => some (String.ofList name, rest)

/-- A dotted key of at most so many parts: those before the last one, and the last one. -/
def keyUpTo : (count : Nat) → List Char → Option ((List String × String) × List Char)
  | 0, _ => none
  | count + 1, cs => do
    let (name, cs) ← keyPart (skipGap cs)
    match skipGap cs with
    | '.' :: cs =>
      let ((path, last), cs) ← keyUpTo count cs
      some ((name :: path, last), cs)
    | cs => some (([], name), cs)

/-- A dotted key. -/
def dottedKey (cs : List Char) : Option ((List String × String) × List Char) := keyUpTo keyLimit cs

/-- A comment, if there is one; it ends before the line end. -/
def skipComment : List Char → Option (List Char)
  | '#' :: cs =>
    let rest := cs.dropWhile isPrintable
    if rest.isEmpty || (lineEnd? rest).isSome then some rest else none
  | cs => some cs

/-- Blanks, line ends and comments. -/
def skipLines : (fuel : Nat) → List Char → Option (List Char)
  | 0, _ => none
  | fuel + 1, cs => do
    let cs ← skipComment (skipGap cs)
    match lineEnd? cs with
    | some cs => skipLines fuel cs
    | none => some cs

/-- The same with enough fuel. -/
def skipSpace (cs : List Char) : Option (List Char) := skipLines (cs.length + 1) cs

/-- The items of an array up to its closing bracket, each read by `item`. -/
def itemsFrom (item : List Char → Option (Value × List Char)) :
    (fuel : Nat) → List Char → Option (List Value × List Char)
  | 0, _ => none
  | fuel + 1, cs => do
    match ← skipSpace cs with
    | ']' :: cs => some ([], cs)
    | cs =>
      let (value, cs) ← item cs
      match ← skipSpace cs with
      | ',' :: cs =>
        let (values, cs) ← itemsFrom item fuel cs
        some (value :: values, cs)
      | ']' :: cs => some ([value], cs)
      | _ => none

/-- A key with its value, added to the fields of a table in braces. -/
def pairInto (item : List Char → Option (Value × List Char)) (fields : Fields) (cs : List Char) :
    Option (Fields × List Char) := do
  let ((path, name), cs) ← dottedKey cs
  let '=' :: cs ← skipSpace cs | none
  let (value, cs) ← item (← skipSpace cs)
  let fields ← Outline.addValue path name value .header fields
  some (fields, cs)

/-- The pairs of a table in braces up to its closing brace. -/
def pairsFrom (item : List Char → Option (Value × List Char)) :
    (fuel : Nat) → Fields → List Char → Option (Fields × List Char)
  | 0, _, _ => none
  | fuel + 1, fields, cs => do
    match ← skipSpace cs with
    | '}' :: cs => some (fields, cs)
    | cs =>
      let (fields, cs) ← pairInto item fields cs
      match ← skipSpace cs with
      | ',' :: cs => pairsFrom item fuel fields cs
      | '}' :: cs => some (fields, cs)
      | _ => none

/-- A value, with no blanks before it. -/
def valueAt : (fuel : Nat) → List Char → Option (Value × List Char)
  | fuel, '[' :: cs =>
    match fuel with
    | 0 => none
    | fuel + 1 =>
      (itemsFrom (valueAt fuel) (cs.length + 1) cs).map fun (values, cs) => (.array values, cs)
  | fuel, '{' :: cs =>
    match fuel with
    | 0 => none
    | fuel + 1 =>
      (pairsFrom (valueAt fuel) (cs.length + 1) [] cs).map fun (fields, cs) =>
        (.table (Outline.finishFields fields), cs)
  | _, cs =>
    match cs with
    | '"' :: _ | '\'' :: _ => (anyString cs).map fun (s, cs) => (.string s, cs)
    | _ => plainAt cs

/-- What a line ends with: blanks, perhaps a comment, and a line end or the end of the text. -/
def endLine (cs : List Char) : Option (List Char) := do
  let cs ← skipComment (skipGap cs)
  if cs.isEmpty then some [] else lineEnd? cs

/-- A document so far, with the path of the table that is open. -/
structure Progress where
  fields : Fields := []
  path : List String := []

/-- The header of a table, from after its opening bracket. -/
def headerLine (p : Progress) (cs : List Char) : Option (Progress × List Char) := do
  let ((path, name), cs) ← dottedKey cs
  let ']' :: cs := cs | none
  some (⟨← Outline.openTable path name p.fields, path ++ [name]⟩, cs)

/-- The header of a further table in an array, from after its opening brackets. -/
def elementLine (p : Progress) (cs : List Char) : Option (Progress × List Char) := do
  let ((path, name), cs) ← dottedKey cs
  let ']' :: ']' :: cs := cs | none
  some (⟨← Outline.openElement path name p.fields, path ++ [name]⟩, cs)

/-- A key with its value, added to the open table. -/
def pairLine (p : Progress) (cs : List Char) : Option (Progress × List Char) := do
  let ((path, name), cs) ← dottedKey cs
  let '=' :: cs := cs | none
  let (value, cs) ← valueAt nestingLimit (skipGap cs)
  let fields ← Outline.change false (Outline.addValue path name value) .header p.fields p.path
  some ({ p with fields }, cs)

/-- The lines of a document. -/
def linesFrom : (fuel : Nat) → Progress → List Char → Option Fields
  | 0, _, _ => none
  | fuel + 1, p, cs => do
    match ← skipSpace cs with
    | [] => some p.fields
    | '[' :: '[' :: cs =>
      let (p, cs) ← elementLine p cs
      linesFrom fuel p (← endLine cs)
    | '[' :: cs =>
      let (p, cs) ← headerLine p cs
      linesFrom fuel p (← endLine cs)
    | cs =>
      let (p, cs) ← pairLine p cs
      linesFrom fuel p (← endLine cs)

/-- The mark that may stand before a text. -/
def byteOrderMark : Char := '\uFEFF'

/-- A text without the mark before it. -/
def withoutMark (cs : List Char) : List Char :=
  if cs.head? = some byteOrderMark then cs.tail else cs

/-- The fields of the document that a text writes. -/
def parse (text : List Char) : Option (List (String × Value)) :=
  let cs := withoutMark text
  (linesFrom (cs.length + 1) {} cs).map Outline.finishFields

end NoteSearch.Toml

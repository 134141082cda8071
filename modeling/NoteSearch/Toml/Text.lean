import NoteSearch.Json.Reader

/-!
# Reading strings in TOML

A string stands between quotes, where a backslash escapes, or between apostrophes, where nothing
does. Between three marks it may go over several lines; a line end right after the opening does not
count, every other one stays as it is written, and up to two marks may stand before the closing.
-/
namespace NoteSearch.Toml

/-- A space or a tab. -/
def isGap (c : Char) : Bool := c == ' ' || c == '\t'

/-- A character that may stand for itself: no control character but the tab. -/
def isPrintable (c : Char) : Bool := c == '\t' || (0x20 ≤ c.toNat && c.toNat ≠ 0x7F)

/-- A line end. -/
def lineEnd? : List Char → Option (List Char)
  | '\n' :: cs => some cs
  | '\r' :: '\n' :: cs => some cs
  | _ => none

/-- Leave out the line end at the start, if there is one. -/
def skipLineEnd (cs : List Char) : List Char := (lineEnd? cs).getD cs

/-- The character of so many hexadecimal digits. -/
def byNumber (width : Nat) (cs : List Char) : Option (Char × List Char) := do
  let run := cs.take width
  if run.length ≠ width then none
  let n ← Json.hexValue? run
  if h : n.isValidChar then some (Char.ofNatAux n h, cs.drop width) else none

/-- The character of an escape, whose backslash is read already. -/
def escapedChar : List Char → Option (Char × List Char)
  | 'b' :: cs => some ('\x08', cs)
  | 't' :: cs => some ('\t', cs)
  | 'n' :: cs => some ('\n', cs)
  | 'f' :: cs => some ('\x0c', cs)
  | 'r' :: cs => some ('\r', cs)
  | 'e' :: cs => some ('\x1b', cs)
  | '"' :: cs => some ('"', cs)
  | '\\' :: cs => some ('\\', cs)
  | 'x' :: cs => byNumber 2 cs
  | 'u' :: cs => byNumber 4 cs
  | 'U' :: cs => byNumber 8 cs
  | _ => none

/-- A string on one line from after its opening mark. -/
def lineText (mark : Char) (escapes : Bool) :
    (fuel : Nat) → List Char → Option (List Char × List Char)
  | 0, _ | _, [] => none
  | fuel + 1, c :: cs =>
    if c = mark then some ([], cs)
    else if escapes && c == '\\' then do
      let (c, cs) ← escapedChar cs
      let (text, cs) ← lineText mark escapes fuel cs
      some (c :: text, cs)
    else if isPrintable c then
      (lineText mark escapes fuel cs).map fun (text, cs) => (c :: text, cs)
    else none

/-- Leave out the blanks and line ends up to the next text. -/
def skipBlank : List Char → List Char
  | ' ' :: cs | '\t' :: cs | '\n' :: cs | '\r' :: '\n' :: cs => skipBlank cs
  | cs => cs

/-- A backslash at the end of a line takes away all blanks and line ends up to the next text. -/
def continued? (cs : List Char) : Option (List Char) :=
  (lineEnd? (cs.dropWhile isGap)).map skipBlank

/-- One step in a string over several lines, marks aside. -/
def linesPiece (escapes : Bool) (cs : List Char) : Option (List Char × List Char) :=
  match cs with
  | [] => none
  | '\n' :: cs => some (['\n'], cs)
  | '\r' :: '\n' :: cs => some (['\r', '\n'], cs)
  | c :: cs =>
    if escapes && c == '\\' then
      match continued? cs with
      | some cs => some ([], cs)
      | none => (escapedChar cs).map fun (c, cs) => ([c], cs)
    else if isPrintable c then some ([c], cs)
    else none

/-- A string over several lines from after its opening, with a run of marks just read. -/
def linesText (mark : Char) (escapes : Bool) :
    (fuel run : Nat) → List Char → Option (List Char × List Char)
  | 0, _, _ => none
  | fuel + 1, run, cs =>
    if cs.head? = some mark then linesText mark escapes fuel (run + 1) cs.tail
    else if 3 ≤ run then
      if run ≤ 5 then some (List.replicate (run - 3) mark, cs) else none
    else do
      let (piece, cs) ← linesPiece escapes cs
      let (text, cs) ← linesText mark escapes fuel 0 cs
      some (List.replicate run mark ++ piece ++ text, cs)

/-- A string on one line, for keys and values. -/
def lineString : List Char → Option (String × List Char)
  | '"' :: cs => (lineText '"' true (cs.length + 1) cs).map fun (t, cs) => (String.ofList t, cs)
  | '\'' :: cs => (lineText '\'' false (cs.length + 1) cs).map fun (t, cs) => (String.ofList t, cs)
  | _ => none

/-- A string of any form. -/
def anyString (cs : List Char) : Option (String × List Char) :=
  match cs with
  | '"' :: '"' :: '"' :: cs =>
    (linesText '"' true (cs.length + 1) 0 (skipLineEnd cs)).map fun (t, cs) => (String.ofList t, cs)
  | '\'' :: '\'' :: '\'' :: cs =>
    (linesText '\'' false (cs.length + 1) 0 (skipLineEnd cs)).map fun (t, cs) =>
      (String.ofList t, cs)
  | cs => lineString cs

end NoteSearch.Toml

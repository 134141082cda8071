import NoteSearch.Text.Blank
import NoteSearch.Text.Pieces

/-!
# Links in a body

A link stands between double square brackets: a target, then perhaps a heading after a number
sign, then perhaps a label after a vertical bar. White space around the target and the label does
not count. A link without a target is none, and a blank label is no label.
-/
namespace NoteSearch.Markdown
open Text

/-- A link as it is written. -/
structure RawLink where
  target : String
  label : Option String
  deriving Repr, DecidableEq

/-- A character that a target may hold. -/
def isTargetChar (c : Char) : Bool := !(c == '[' || c == ']' || c == '|' || c == '#')

/-- A character that a heading may hold. -/
def isHeadingChar (c : Char) : Bool := !(c == '[' || c == ']' || c == '|')

/-- A character that a label may hold. -/
def isLabelChar (c : Char) : Bool := !(c == '[' || c == ']')

/-- The text after a heading, if there is a heading. -/
def skipHeading : List Char → List Char
  | '#' :: rest => rest.dropWhile isHeadingChar
  | cs => cs

/-- The label that follows, if there is one, and the text after it. -/
def readLabel : List Char → Option (List Char) × List Char
  | '|' :: rest =>
    if (rest.takeWhile isLabelChar).isEmpty then (none, '|' :: rest)
    else (some (rest.takeWhile isLabelChar), rest.dropWhile isLabelChar)
  | cs => (none, cs)

/-- Target and label of the link that starts the text, as written, and the text after it. -/
def linkAt? (cs : List Char) : Option (List Char × Option (List Char) × List Char) := do
  let opened ← after? ['[', '['] cs
  let target := opened.takeWhile isTargetChar
  if target.isEmpty then none
  let (label, rest) := readLabel (skipHeading (opened.dropWhile isTargetChar))
  let rest ← after? [']', ']'] rest
  some (target, label, rest)

/-- The links of a text as target and label, with the blanks around them. The fuel bounds
the number of steps. -/
def linksFrom : (fuel : Nat) → List Char → List (List Char × Option (List Char))
  | 0, _ => []
  | _, [] => []
  | fuel + 1, c :: cs =>
    match linkAt? (c :: cs) with
    | some (target, label, rest) => (target, label) :: linksFrom fuel rest
    | none => linksFrom fuel cs

/-- A link from its parts, if it has a target. -/
def RawLink.ofParts? (target : List Char) (label : Option (List Char)) : Option RawLink :=
  if (trim target).isEmpty then none
  else some {
    target := String.ofList (trim target)
    label := (label.map trim).bind fun l => if l.isEmpty then none else some (String.ofList l) }

/-- The links of a body, in order. Every step takes a character, so the length of the body bounds
the steps. -/
def links (body : String) : List RawLink :=
  (linksFrom body.toList.length body.toList).filterMap fun (target, label) =>
    RawLink.ofParts? target label

end NoteSearch.Markdown

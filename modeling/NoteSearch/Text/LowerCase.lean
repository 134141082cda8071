import NoteSearch.Text.LowerCase.Cased
import NoteSearch.Text.LowerCase.Shifts

/-!
# Lower case

The full, language-independent lower case mapping. It works character by character, with
two exceptions: the dotted capital I becomes an `i` and a combining dot, and the capital
sigma becomes a final sigma at the end of a word and a plain sigma elsewhere. A sigma ends a word
when a cased character precedes it and none follows, case-ignorable characters being looked
through on both sides.
-/
namespace NoteSearch.Text

/-- The lower case form of one character, where it does not depend on the neighbours. -/
def lowerChar (c : Char) : List Char :=
  if c.toNat < 0x80 then [c.toLower]
  else if c = 'İ' then ['i', '\u0307']
  else
    match caseRuns.find? fun run =>
        run.first ≤ c.toNat && c.toNat ≤ run.last && (c.toNat - run.first) % run.step == 0 with
    | some run => [Char.ofNat (c.toNat + run.offset).toNat]
    | none => [c]

/-- Whether the first character that is not case-ignorable is cased. -/
def startsCased (text : List Char) : Bool :=
  match text.dropWhile caseIgnorable.has with
  | [] => false
  | c :: _ => cased.has c

/-- The lower case form of a capital sigma, with the text before it in reverse. -/
def lowerSigma (before after : List Char) : Char :=
  if startsCased before && !startsCased after then 'ς' else 'σ'

/-- The lower case form of a text, with the text before it in reverse. -/
def lowerFrom (before : List Char) : List Char → List Char
  | [] => []
  | c :: rest =>
    (if c = 'Σ' then [lowerSigma before rest] else lowerChar c) ++ lowerFrom (c :: before) rest

/-- The lower case form of a text. -/
def lower (text : List Char) : List Char := lowerFrom [] text

/-- The lower case form of a string. -/
def lowered (s : String) : String := String.ofList (lower s.toList)

end NoteSearch.Text

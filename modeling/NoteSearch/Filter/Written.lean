import NoteSearch.Filter.Basic
import NoteSearch.Text.Blank
import NoteSearch.Text.Pieces

/-!
# Filters as they are written

A filter is written `[!]facet:value`; a link may have its label after a vertical bar. When a
filter is read, white space around the facet, the value and the label does not count, a tag
gets the number sign that it lacks, and a link is taken to have a target.
-/
namespace NoteSearch.Filter
open Text

/-- Why a text is no filter. -/
inductive Fault where
  /-- The text has no colon. -/
  | noColon (input : String)
  | unknownFacet (name : String)
  /-- Only a text filter may have an empty value. -/
  | emptyValue (facet : Facet)
  /-- A tag is one word. -/
  | spacedTag (value : String)
  deriving Repr, DecidableEq

/-- The fault in words. -/
def Fault.message : Fault → String
  | .noColon input => "Invalid filter '" ++ input ++ "': expected [!]kind:value"
  | .unknownFacet name =>
    "Unknown filter kind '" ++ name ++ "' (expected tag, folder, link, backlink or text)"
  | .emptyValue facet => "Filter of kind '" ++ facet.name ++ "' needs a non-empty value"
  | .spacedTag value => "Invalid tag '" ++ value ++ "': tags cannot contain whitespace"

/-- The filter as it is written. -/
def written (f : Filter) : String :=
  (if f.reversed then "!" else "") ++ f.facet.name ++ ":" ++ f.value ++
    match f.probe with
    | .link _ (some label) => "|" ++ label
    | _ => ""

/-- The facet of a written name. -/
def readFacet (name : List Char) : Except Fault Facet :=
  match Facet.ofName? (String.ofList name) with
  | some facet => .ok facet
  | none => .error (.unknownFacet (String.ofList name))

/-- The mark that all tags begin with. -/
def tagMark : Char := '#'

/-- A tag with its mark. -/
def marked (tag : List Char) : List Char :=
  if tag.head? = some tagMark then tag else tagMark :: tag

/-- The link of a trimmed value: what stands before the first bar is the target, and what stands
after it is the label unless it is blank. -/
def readLink (value : List Char) (reversed : Bool) : Filter :=
  match cut? ['|'] value with
  | none => ⟨.link true none, String.ofList value, reversed⟩
  | some (target, label) =>
    let label := trim label
    ⟨.link true (if label.isEmpty then none else some (String.ofList label)),
      String.ofList (trim target), reversed⟩

/-- The filter of a facet and a trimmed value. -/
def ofValue (facet : Facet) (value : List Char) (reversed : Bool) : Except Fault Filter :=
  if value.isEmpty && facet != .text then .error (.emptyValue facet)
  else
    match facet with
    | .tag =>
      if value.any isBlank then .error (.spacedTag (String.ofList value))
      else .ok ⟨.tag, String.ofList (marked value), reversed⟩
    | .folder => .ok ⟨.folder, String.ofList value, reversed⟩
    | .link => .ok (readLink value reversed)
    | .backlink => .ok ⟨.backlink, String.ofList value, reversed⟩
    | .text => .ok ⟨.text, String.ofList value, reversed⟩

/-- A leading exclamation mark, which reverses a filter, and what follows. -/
def readReversal : List Char → Bool × List Char
  | '!' :: rest => (true, rest)
  | cs => (false, cs)

/-- The filter that a text writes. -/
def read (input : String) : Except Fault Filter := do
  let (reversed, body) := readReversal (trim input.toList)
  let some (name, value) := cut? [':'] body | .error (.noColon input)
  let facet ← readFacet (trim name)
  ofValue facet (trim value) reversed

end NoteSearch.Filter

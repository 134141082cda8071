import NoteSearch.Search.Hit
import NoteSearch.Text.Blank
import NoteSearch.Text.LowerCase

/-!
# Sorting hits

Hits are sorted by one of four keys, upwards or downwards. The sort is stable in both directions:
hits that the key does not tell apart stay in the order in which they came.
-/
namespace NoteSearch.Search
open Text

/-- What hits are sorted by. -/
inductive SortKey where
  | modified
  | name
  | size
  | backlinks
  deriving Repr, DecidableEq

namespace SortKey

/-- All keys, in the order in which they are offered. -/
def all : List SortKey := [modified, name, size, backlinks]

/-- The word for a key in commands and files. -/
def word : SortKey → String
  | modified => "modified_date"
  | name => "name"
  | size => "size"
  | backlinks => "backlinks"

/-- The key in words. -/
def label : SortKey → String
  | modified => "Date Modified"
  | name => "Name"
  | size => "Note size"
  | backlinks => "Number of backlinks"

/-- The key of exactly that word. -/
def ofWord? (word : String) : Option SortKey := all.find? (·.word == word)

/-- The key that a text names, in either case and with hyphens or underscores. -/
def read? (input : String) : Option SortKey :=
  ofWord? (String.ofList ((lower (trim input.toList)).map fun c => if c = '-' then '_' else c))

/-- What is said about a text that names no key. -/
def unknownMessage (input : String) : String :=
  "Unknown sort '" ++ input ++ "' (expected one of: modified_date, name, size, backlinks)"

/-- The order of names: by their lower case forms, and then as they are written. -/
def nameOrder (a b : String) : Ordering :=
  (compare (lowered a) (lowered b)).then (compare a b)

/-- The upward order of two hits. -/
def order (key : SortKey) (a b : Hit) : Ordering :=
  match key with
  | modified => a.modified.order b.modified
  | name => nameOrder a.title b.title
  | size => compare a.size b.size
  | backlinks => compare a.backlinks b.backlinks

end SortKey

/-- A key and a direction. -/
structure SortChoice where
  key : SortKey := .modified
  reverse : Bool := false
  deriving Repr, DecidableEq

namespace SortChoice

/-- The same key in the other direction. -/
def flipped (s : SortChoice) : SortChoice := { s with reverse := !s.reverse }

/-- The choices that are offered; what is linked most comes first. -/
def presets : List SortChoice :=
  [⟨.modified, false⟩, ⟨.name, false⟩, ⟨.size, false⟩, ⟨.backlinks, true⟩]

/-- The choice in words. -/
def text (s : SortChoice) : String :=
  s.key.label ++ " (" ++ (if s.reverse then "desc" else "asc") ++ ")"

/-- The order of two hits; downwards it is the upward order of the two exchanged. -/
def order (s : SortChoice) (a b : Hit) : Ordering :=
  if s.reverse then s.key.order b a else s.key.order a b

/-- The choice as a JSON object. -/
def toJson (s : SortChoice) : Json :=
  .object [("type", .string s.key.word), ("reverse", .bool s.reverse)]

/-- A key in JSON: its word, or an object that gives null to its word alone. -/
def keyOfJson? : Json → Option SortKey
  | .string word => SortKey.ofWord? word
  | .object [(word, .null)] => SortKey.ofWord? word
  | _ => none

/-- A choice in JSON: an object with a `type` and perhaps `reverse`, or an array of the two. -/
def ofJson? : Json → Option SortChoice
  | .object fields =>
    match Json.valuesOf fields "type", Json.valuesOf fields "reverse" with
    | [key], [] => (keyOfJson? key).map (⟨·, false⟩)
    | [key], [.bool reverse] => (keyOfJson? key).map (⟨·, reverse⟩)
    | _, _ => none
  | .array [key] => (keyOfJson? key).map (⟨·, false⟩)
  | .array [key, .bool reverse] => (keyOfJson? key).map (⟨·, reverse⟩)
  | _ => none

/-- A choice in JSON, or none where there is null. -/
def optionOfJson? : Json → Option (Option SortChoice)
  | .null => some none
  | v => (ofJson? v).map some

/-- The choice that a command asks for. A reversal without a key reverses the default. -/
def requested (key : Option SortKey) (reverse : Bool) (default : Option SortChoice) :
    Option SortChoice :=
  match key with
  | some key => some ⟨key, reverse⟩
  | none => if reverse then some (default.getD {}).flipped else default

end SortChoice

/-- The hits in the order of a choice; without a choice those changed first come first. -/
def sortHits (choice : Option SortChoice) (hits : List Hit) : List Hit :=
  hits.mergeSort fun a b => ((choice.getD {}).order a b).isLE

end NoteSearch.Search

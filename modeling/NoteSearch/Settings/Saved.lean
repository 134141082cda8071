import NoteSearch.Settings.Basic
import NoteSearch.Toml.Quoted

/-!
# Settings as they are saved

Settings are saved one a line, with the default order in a table of its own at the end. What is
not set is left out. Numbers are saved only if they fit into a signed 64-bit word.
-/
namespace NoteSearch.Settings
open Decimal

/-- A line that sets a name to a value. -/
def line (name : String) (value : List Char) : List Char :=
  name.toList ++ " = ".toList ++ value ++ ['\n']

/-- A truth value. -/
def flag (b : Bool) : List Char := if b then "true".toList else "false".toList

/-- The numbers among the settings, in the order in which they are written. -/
def numbers (s : Settings) : List (String × Nat) :=
  [("batch_size", s.batch), ("fetch_timeout_ms", s.limit), ("max_suggestions", s.maxSuggestions),
    ("body_cache_capacity", s.bodies)]

/-- The table of the default order. -/
def sortTable (sort : Search.SortChoice) : List Char :=
  "\n[default_sort]\n".toList ++ line "type" (Toml.quoted sort.key.word.toList)
    ++ line "reverse" (flag sort.reverse)

/-- The text of the settings. -/
def text (s : Settings) : String := String.ofList <|
  (match s.vault with
    | some vault => line "vault" (Toml.quoted vault.toList)
    | none => [])
  ++ s.numbers.flatMap (fun (name, n) => line name (digits n))
  ++ line "quiet" (flag s.quiet)
  ++ match s.sort with
    | some sort => sortTable sort
    | none => []

/-- The text of the settings, if all numbers can be saved. -/
def text? (s : Settings) : Option String :=
  if s.numbers.all (·.2 < signedLimit) then some s.text else none

end NoteSearch.Settings

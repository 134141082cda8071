import NoteSearch.Filter.Basic
import NoteSearch.Text.LowerCase
import NoteSearch.Text.Pieces

/-!
# Suggestions

Suggestions are filters that are offered to be picked: no two with one key, none with an empty
value, the shortest values first. They are narrowed to what a user has typed so far.
-/
namespace NoteSearch.Suggestion
open Text

/-- How many suggestions are shown unless something else is asked for. -/
def defaultMax : Nat := 50

/-- The filters whose keys are neither among `seen` nor repeated. -/
def distinct (seen : List String) : List Filter → List Filter
  | [] => []
  | f :: rest =>
    if seen.contains f.key then distinct seen rest else f :: distinct (f.key :: seen) rest

/-- The filters with a value, each key once, where it first comes. -/
def dedup (filters : List Filter) : List Filter :=
  distinct [] (filters.filter (!·.value.isEmpty))

/-- The filters by the lengths of their values; equal lengths stay in order. -/
def byLength (filters : List Filter) : List Filter :=
  filters.mergeSort fun f g => f.value.length ≤ g.value.length

/-- The suggestions that some filters give. -/
def offered (filters : List Filter) : List Filter := byLength (dedup filters)

/-- What is left of the suggestions for an input. -/
structure Narrowed where
  filters : List Filter
  /-- Whether more would have been shown if there were room. -/
  truncated : Bool
  deriving Repr, DecidableEq

/-- Whether a suggestion's value has the input in it, in either case. -/
def mentions (input : String) (f : Filter) : Bool :=
  occurs (lower input.toList) (lower f.value.toList)

/-- Whether a suggestion matches an input and no active filter targets it already. -/
def isWanted (input : String) (active : List Filter) (f : Filter) : Bool :=
  mentions input f && !active.any (·.sameTarget f)

/-- The first so many filters that are wanted, and the filters after the last of them. -/
def takeWanted (wanted : Filter → Bool) : Nat → List Filter → List Filter × List Filter
  | 0, rest => ([], rest)
  | _ + 1, [] => ([], [])
  | n + 1, f :: rest =>
    if wanted f then
      let (taken, rest) := takeWanted wanted n rest
      (f :: taken, rest)
    else takeWanted wanted (n + 1) rest

/-- The filter on the text that was typed. -/
def ofInput (input : String) : Filter := { probe := .text, value := input }

/-- The suggestions for an input: the filter on its text first, then those that match. No more
suggestions are looked at than it takes to see whether there would be more to show. -/
def narrow (suggestions : List Filter) (input : String) (active : List Filter) (max : Nat) :
    Narrowed :=
  let wanted := isWanted input active
  let (shown, rest) := takeWanted wanted (max - 1) suggestions
  { filters := if 0 < max then ofInput input :: shown else shown
    truncated := rest.any wanted }

end NoteSearch.Suggestion

import NoteSearch.Keyed
import NoteSearch.Settings.Basic
import NoteSearch.Text.LowerCase
import NoteSearch.Toml.Reader

/-!
# Settings as they are loaded

A file of settings is generous. A key at its top may be a path into tables and arrays, a number may
be written as a text, as a truth value or with a fraction, a truth value as a number or as one of
the usual words, and a text as anything plain. Keys that no setting has are passed over.
-/
namespace NoteSearch.Settings
open Decimal Text Search
open Toml (Value)

/-- A value of a file. What a path has made room for but nothing has filled is empty. -/
inductive Entry where
  | empty
  | string (s : String)
  | integer (n : Int)
  | float (x : Binary64)
  | bool (b : Bool)
  | array (items : List Entry)
  | table (fields : List (String × Entry))
  deriving Repr, Inhabited

mutual
/-- The entry of a TOML value; dates count as text. -/
def Entry.ofToml : Value → Entry
  | .string s => .string s
  | .integer n => .integer n
  | .float x => .float x
  | .bool b => .bool b
  | .date text => .string text
  | .array items => .array (entriesOf items)
  | .table fields => .table (fieldsOf fields)

/-- The entries of an array. -/
def entriesOf : List Value → List Entry
  | [] => []
  | v :: vs => Entry.ofToml v :: entriesOf vs

/-- The entries of a table. -/
def fieldsOf : List (String × Value) → List (String × Entry)
  | [] => []
  | (name, v) :: fields => (name, Entry.ofToml v) :: fieldsOf fields
end

/-- A step on a path: a name in a table, or a place in an array, counted from its end if
negative. -/
inductive Step where
  | name (s : String)
  | index (n : Int)
  deriving Repr, DecidableEq

/-- A character of a name on a path. -/
def isNameChar (c : Char) : Bool := Toml.isBareKey c

/-- A name on a path, and the rest. -/
def nameAt (cs : List Char) : Option (Step × List Char) :=
  match cs.span isNameChar with
  | ([], _) => none
  | (name, rest) => some (.name (String.ofList name), rest)

/-- An index on a path, a signed 64-bit word, from after its opening bracket, and the rest. -/
def indexAt (cs : List Char) : Option (Step × List Char) := do
  let (negative, cs) := match Toml.skipGap cs with
    | '-' :: cs => (true, cs)
    | cs => (false, cs)
  let (run, cs) := cs.span isDigit
  let size ← read? run
  let n : Int := if negative then -(size : Int) else size
  if n < -(signedLimit : Int) ∨ (signedLimit : Int) ≤ n then none
  let ']' :: cs := Toml.skipGap cs | none
  some (.index n, cs)

/-- The further steps of a path. -/
def stepsFrom : (fuel : Nat) → List Char → Option (List Step)
  | 0, _ => none
  | _, [] => some []
  | fuel + 1, '.' :: cs => do
    let (step, cs) ← nameAt cs
    (stepsFrom fuel cs).map (step :: ·)
  | fuel + 1, '[' :: cs => do
    let (step, cs) ← indexAt cs
    (stepsFrom fuel cs).map (step :: ·)
  | _, _ => none

/-- The path that a key stands for; a key that is no path is a name as a whole. -/
def pathOf (key : String) : List Step :=
  let read := do
    let (step, cs) ← nameAt key.toList
    (stepsFrom (cs.length + 1) cs).map (step :: ·)
  read.getD [.name key]

/-- Change the entry at the end of a path, making room on the way. What is in the way and is no
table or array gives place to one. -/
def change (act : Entry → Entry) : List Step → Entry → Entry
  | [], entry => act entry
  | .name name :: path, entry =>
    let fields := match entry with
      | .table fields => fields
      | _ => []
    .table (Keyed.put fields name (change act path ((fields.lookup name).getD .empty)))
  | .index n :: path, entry =>
    let items := match entry with
      | .array items => items
      | _ => []
    let place := if 0 ≤ n then n else items.length + n
    if 0 ≤ place then
      let filled := items ++ List.replicate (place.toNat + 1 - items.length) .empty
      .array (filled.set place.toNat (change act path ((filled[place.toNat]?).getD .empty)))
    else
      .array (change act path .empty :: List.replicate ((-place).toNat - 1) .empty ++ items)

mutual
/-- An entry put over another: tables are merged, all else is replaced. -/
def merged (below : Entry) : Entry → Entry
  | .table fields =>
    .table (mergedAll (match below with
      | .table old => old
      | _ => []) fields)
  | entry => entry

/-- Fields put over others. -/
def mergedAll (below : List (String × Entry)) : List (String × Entry) → List (String × Entry)
  | [] => below
  | (name, entry) :: fields =>
    mergedAll (Keyed.put below name (merged ((below.lookup name).getD .empty) entry)) fields
end

/-- All keys of a file, one put over the other. -/
def gathered (fields : List (String × Value)) : List (String × Entry) :=
  let root := fields.foldl (fun root (key, value) =>
    change (fun below => merged below (Entry.ofToml value)) (pathOf key) root) (.table [])
  match root with
  | .table fields => fields
  | _ => []

namespace Entry

/-- The entry as a natural number of 64 bits. -/
def word? : Entry → Option Nat
  | integer n => if 0 ≤ n then some n.toNat else none
  | bool b => some b.toNat
  | float x => some x.toWord
  | string s =>
    let word := lowered s
    if word ∈ ["true", "on", "yes"] then some 1
    else if word ∈ ["false", "off", "no"] then some 0
    else readWord? s.toList
  | _ => none

/-- The entry as a truth value. -/
def flag? : Entry → Option Bool
  | bool b => some b
  | integer n => some (n != 0)
  | float x => some (!x.isZero)
  | string s =>
    let word := lowered s
    if word ∈ ["1", "true", "on", "yes"] then some true
    else if word ∈ ["0", "false", "off", "no"] then some false
    else none
  | _ => none

/-- The entry as a text. -/
def text? : Entry → Option String
  | string s => some s
  | integer n => some (toString n)
  | float x => some x.text
  | bool b => some (if b then "true" else "false")
  | _ => none

/-- The entry as a sort key: its word, or a table with the word as its only name. -/
def sortKey? : Entry → Option SortKey
  | string word => SortKey.ofWord? word
  | table [(word, _)] => SortKey.ofWord? word
  | _ => none

/-- The entry as an order: a table with a `type` and perhaps `reverse`, or an array that starts with
the two. -/
def sort? : Entry → Option SortChoice
  | table fields => do
    let key ← (← fields.lookup "type").sortKey?
    let reverse ← match fields.lookup "reverse" with
      | some entry => entry.flag?
      | none => some false
    some ⟨key, reverse⟩
  | array [key] => key.sortKey?.map (⟨·, false⟩)
  | array (key :: reverse :: _) => do some ⟨← key.sortKey?, ← reverse.flag?⟩
  | _ => none

/-- An entry that may be empty. -/
def optional {α : Type} (read : Entry → Option α) : Entry → Option (Option α)
  | empty => some none
  | entry => (read entry).map some

end Entry

/-- The setting of a name, or its default. -/
def setting {α : Type} (fields : List (String × Entry)) (name : String) (read : Entry → Option α)
    (default : α) : Option α :=
  match fields.lookup name with
  | some entry => read entry
  | none => some default

/-- The settings of gathered fields. -/
def ofEntries? (fields : List (String × Entry)) : Option Settings := do
  let d : Settings := {}
  let vault ← setting fields "vault" (Entry.optional Entry.text?) d.vault
  let batch ← setting fields "batch_size" Entry.word? d.batch
  let limit ← setting fields "fetch_timeout_ms" Entry.word? d.limit
  let maxSuggestions ← setting fields "max_suggestions" Entry.word? d.maxSuggestions
  let bodies ← setting fields "body_cache_capacity" Entry.word? d.bodies
  let quiet ← setting fields "quiet" Entry.flag? d.quiet
  let sort ← setting fields "default_sort" (Entry.optional Entry.sort?) d.sort
  some { vault, batch, limit, maxSuggestions, bodies, quiet, sort }

/-- The settings that the text of a file sets. -/
def read? (text : String) : Option Settings := do
  ofEntries? (gathered (← Toml.parse (Toml.withoutMark text.toList)))

end NoteSearch.Settings

import NoteSearch.CommandLine.Invocation
import NoteSearch.Display.Lines
import NoteSearch.Failure
import NoteSearch.Workspace.Basic

/-!
# The program

What the program prints for an invocation, given the settings and the disk. Text that was printed
before a failure stays printed.
-/
namespace NoteSearch.Program
open Search Vault CommandLine

/-- What the program knows of its surroundings. -/
structure Surroundings where
  disk : Disk.Tree
  settings : Settings
  /-- Where the settings are kept. -/
  settingsFile : String
  /-- Whether the terminal shows styles. -/
  styled : Bool
  /-- Where dates are read. -/
  zone : Time.Zone

/-- What the program has printed, and why it stopped, if it failed. -/
structure Result where
  lines : List String := []
  failure : Option Failure := none
  deriving Repr, DecidableEq

/-- A program that has printed some lines and may have failed. -/
abbrev Printing := ExceptT Failure (StateM (List String))

/-- Print a line. -/
def print (line : String) : Printing Unit := modify (· ++ [line])

/-- Print several lines. -/
def printAll (lines : List String) : Printing Unit := modify (· ++ lines)

/-- What came of printing. -/
def Result.of (p : Printing Unit) : Result :=
  match p.run.run [] with
  | (.ok (), lines) => { lines }
  | (.error failure, lines) => { lines, failure := some failure }

/-- The text on standard output. -/
def Result.text (r : Result) : String := String.join (r.lines.map (· ++ "\n"))

/-- The exit code of a program that was invoked as it should be. -/
def Result.code (r : Result) : Nat := if r.failure.isSome then 1 else 0

/-- The exit code for a command line that is not carried out: it is no failure to ask for help. -/
def faultCode : CommandLine.Fault → Nat
  | .help | .version => 0
  | _ => 2

/-- What is said when there is no vault to open. -/
def noVault : String :=
  "No vault given. Pass --vault <PATH> or set `vault` in the config file."

/-- The vault that is named or set. -/
def rootFor (here : Surroundings) (named : Option String) : Except Failure String :=
  match here.settings.root named with
  | some root => .ok root
  | none => .error (.invalidInput noVault)

/-- Open a vault with a session on it. -/
def openVault (here : Surroundings) (named : Option String) :
    Except Failure (Workspace × Session) := do
  let root ← rootFor here named
  match Folder.openAt here.disk root with
  | .error fault => throw (.vault fault)
  | .ok vault =>
    let store := Store.folder vault here.disk
    let session := (Session.ofSuggestions store.suggestions).withSettings here.settings
    return ({ store, sessions := [some session] }, session)

/-- A session for filters whose links know whether they lead anywhere. -/
def withFilters (w : Workspace) (s : Session) (filters : List Filter) : Session :=
  s.setFilters (filters.map w.store.resolveLink)

/-- The session with so many batches shown, or with all of them. -/
def showPages (s : Session) (pages : Option Nat) : Session :=
  match pages with
  | some pages => { s with pager := Pager.advanceBy (pages - 1) s.pager }
  | none => { s with pager := s.pager.advanceAll }

/-- Run a search in a session; what is left is the session to print. -/
def found (w : Workspace) (s : Session) : Except Failure Session :=
  match w.tick 0 s with
  | (.error fault, _) => .error (.session fault)
  | (.ok _, w) => .ok ((w.session? 0).getD s)

/-- The lines of a session's hits. -/
def pageLines (zone : Time.Zone) (styled quiet : Bool) (s : Session) : List String :=
  let hits := s.window.map (Display.hitLine zone styled quiet)
  if quiet then hits
  else
    s.selection.filters.map (Display.filterLine styled) ++ hits
      ++ [Display.footer s.window.length s.hits.length s.selection.sort]

/-- The lines of a session's suggestions for an input. -/
def suggestionLines (styled quiet : Bool) (s : Session) (input : String) : List String :=
  let narrowed := s.narrow input
  narrowed.filters.map (Display.suggestionLine styled quiet)
    ++ if narrowed.truncated && !quiet then [Display.truncatedHint styled] else []

/-- A word with spaces after it up to a width. -/
def padded (width : Nat) (word : String) : String :=
  word ++ String.ofList (List.replicate (width - word.length) ' ')

/-- What is said about sorting below the settings. -/
def sortLines : List String :=
  "# sort presets:" :: SortChoice.presets.map (fun preset =>
    "#   " ++ padded 14 preset.key.word ++ " " ++ preset.text)
    ++ ["# sort keys: " ++ ", ".intercalate (SortKey.all.map (·.word))]

/-- The lines of a text that ends with a line end. -/
def linesOf (text : String) : List String :=
  (Text.pieces '\n' text.toList).dropLast.map String.ofList

/-- Print the settings. -/
def printSettings (here : Surroundings) (quiet : Bool) : Printing Unit := do
  if !quiet then print ("# " ++ here.settingsFile)
  match here.settings.text? with
  | some text => printAll (linesOf text)
  | none => throw (.invalidInput ("Failed to render config: " ++ Settings.tooLarge))
  if !quiet then printAll sortLines

/-- Carry out a task. The scripts that complete command lines in a shell are made by a library; they
are left out, so that nothing is printed for them. -/
def perform (here : Surroundings) (i : Invocation) : Printing Unit := do
  let quiet := i.quiet || here.settings.quiet
  match i.task with
  | .query filters => print (Query.compile filters)
  | .completions _ => return
  | .config => printSettings here quiet
  | .search filters sort reverse pages all json =>
    let (w, s) ← openVault here i.vault
    let s := (withFilters w s filters).setSort
      (SortChoice.requested sort reverse here.settings.sort)
    let s := showPages (← found w s) (if all then none else some pages)
    if json then print (Display.listing s.window)
    else printAll (pageLines here.zone here.styled quiet s)
  | .suggest input filters limit =>
    let (w, s) ← openVault here i.vault
    let s := match limit with
      | some limit => s.withMaxSuggestions limit
      | none => s
    printAll (suggestionLines here.styled quiet (withFilters w s filters) input)
  | .opening path =>
    let (w, _) ← openVault here i.vault
    if !(w.openDocument path).1 then throw (.invalidInput ("No such document: '" ++ path ++ "'"))
    if !quiet then print ("Opened " ++ path)

/-- Load the settings, which are saved if there are none, and carry out a task. With the disk as it
is left. -/
def run (disk : Disk.Tree) (settingsFile : String) (styled : Bool) (zone : Time.Zone)
    (i : Invocation) : Result × Disk.Tree :=
  match Settings.loadOrCreate disk settingsFile with
  | .error fault => ({ failure := some (.settings fault) }, disk)
  | .ok (settings, disk) =>
    (.of (perform { disk, settings, settingsFile, styled, zone } i), disk)

end NoteSearch.Program

import NoteSearch.Decimal.Digits
import NoteSearch.Filter.Written
import NoteSearch.Search.Sorting

/-!
# Commands and arguments

The commands of the program, the arguments that each of them takes, and which values an argument
may have.
-/
namespace NoteSearch.CommandLine
open Search

/-- Why a command line is not carried out. Help and the version are given instead of it. -/
inductive Fault where
  /-- A value is missing, empty, or not among the few that there are. -/
  | badValue
  /-- A value cannot be read. -/
  | unreadableValue
  | unknownArgument
  /-- Arguments that do not go together, or one that is repeated. -/
  | conflict
  /-- A value for an argument that takes none. -/
  | needlessValue
  | missingArgument
  | unknownCommand
  | missingCommand
  | help
  | version
  /-- Help, because nothing was asked for. -/
  | helpForNothing
  deriving Repr, DecidableEq

/-- The commands. -/
inductive Command where
  | search
  | suggest
  | query
  | opening
  | completions
  | config
  deriving Repr, DecidableEq

namespace Command

/-- All commands. -/
def all : List Command := [search, suggest, query, opening, completions, config]

/-- The words for a command. -/
def words : Command → List String
  | search => ["search", "s"]
  | suggest => ["suggest"]
  | query => ["query"]
  | opening => ["open"]
  | completions => ["completions"]
  | config => ["config"]

/-- The command of a word. -/
def ofWord? (word : String) : Option Command := all.find? (·.words.contains word)

end Command

/-- The word that asks for help on commands. -/
def helpWord : String := "help"

/-- What can be given to a command. -/
inductive Argument where
  | vault
  | verbose
  | quiet
  | filter
  | sort
  | reverse
  | pages
  | all
  | format
  | limit
  | help
  | version
  | input
  | path
  | shell
  deriving Repr, DecidableEq

namespace Argument

/-- The long name, for arguments that have one. -/
def long? : Argument → Option String
  | vault => some "vault"
  | verbose => some "verbose"
  | quiet => some "quiet"
  | filter => some "filter"
  | sort => some "sort"
  | reverse => some "reverse"
  | pages => some "pages"
  | all => some "all"
  | format => some "format"
  | limit => some "limit"
  | help => some "help"
  | version => some "version"
  | input | path | shell => none

/-- The letter, for arguments that have one. -/
def letter? : Argument → Option Char
  | verbose => some 'v'
  | quiet => some 'q'
  | filter => some 'f'
  | sort => some 's'
  | reverse => some 'r'
  | pages => some 'p'
  | all => some 'a'
  | limit => some 'l'
  | help => some 'h'
  | version => some 'V'
  | vault | format | input | path | shell => none

/-- Whether the argument has a value. -/
def takesValue : Argument → Bool
  | verbose | quiet | reverse | all | help | version => false
  | _ => true

/-- Whether the argument may be given more than once. -/
def repeats : Argument → Bool
  | filter => true
  | _ => false

/-- The formats of a listing. -/
def formats : List String := ["text", "json"]

/-- The shells for which there are completions. -/
def shells : List String := ["bash", "elvish", "fish", "powershell", "zsh"]

/-- What speaks against a value of an argument, if anything. -/
def objection (value : String) : Argument → Option Fault
  | vault => if value.isEmpty then some .badValue else none
  | filter => match Filter.read value with
    | .ok _ => none
    | .error _ => some .unreadableValue
  | sort => if (SortKey.read? value).isSome then none else some .unreadableValue
  | pages | limit =>
    if (Decimal.readWord? value.toList).isSome then none else some .unreadableValue
  | format => if formats.contains value then none else some .badValue
  | shell => if shells.contains value then none else some .badValue
  | _ => none

end Argument

/-- What may stand at one level of a command line: before the command, or after it. -/
structure Level where
  named : List Argument
  /-- The argument that is given by its place. -/
  placed : Option Argument := none
  /-- That argument cannot be left out. -/
  needed : Bool := false
  /-- Whether a command may stand here. -/
  commands : Bool := false

/-- The arguments that may stand at both levels. -/
def shared : List Argument := [.vault, .verbose, .quiet, .help]

/-- The level before the command. -/
def top : Level := { named := shared ++ [.version], commands := true }

/-- The level after a command. -/
def Command.level : Command → Level
  | .search => { named := shared ++ [.filter, .sort, .reverse, .pages, .all, .format] }
  | .suggest => { named := shared ++ [.filter, .limit], placed := some .input }
  | .query => { named := shared ++ [.filter] }
  | .opening => { named := shared, placed := some .path, needed := true }
  | .completions => { named := shared, placed := some .shell, needed := true }
  | .config => { named := shared }

end NoteSearch.CommandLine

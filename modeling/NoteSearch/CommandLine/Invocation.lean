import NoteSearch.CommandLine.Reading

/-!
# Invocations

What a command line asks for, once all of it has been read.
-/
namespace NoteSearch.CommandLine
open Search

/-- A command with what it is to work on. -/
inductive Task where
  | search (filters : List Filter) (sort : Option SortKey) (reverse : Bool) (pages : Nat)
    (all json : Bool)
  | suggest (input : String) (filters : List Filter) (limit : Option Nat)
  | query (filters : List Filter)
  | opening (path : String)
  | completions (shell : String)
  | config
  deriving Repr, DecidableEq

/-- A task, and what holds for all tasks. -/
structure Invocation where
  task : Task
  vault : Option String := none
  verbose : Bool := false
  quiet : Bool := false
  deriving Repr, DecidableEq

/-- The value of an argument. -/
def valueOf (given : List Given) (a : Argument) : Option String := given.lookup a

/-- Whether an argument was given. -/
def isGiven (given : List Given) (a : Argument) : Bool := given.any (·.1 == a)

/-- The filters, in order. -/
def filtersOf (given : List Given) : List Filter :=
  given.filterMap fun (a, value) => if a = .filter then (Filter.read value).toOption else none

/-- The number that an argument gives. -/
def numberOf (given : List Given) (a : Argument) : Option Nat :=
  (valueOf given a).bind fun value => Decimal.readWord? value.toList

/-- The task of a command with its arguments. -/
def Task.of (given : List Given) : Command → Task
  | .search => .search (filtersOf given) ((valueOf given .sort).bind SortKey.read?)
      (isGiven given .reverse) ((numberOf given .pages).getD 1) (isGiven given .all)
      (valueOf given .format == some "json")
  | .suggest =>
    .suggest ((valueOf given .input).getD "") (filtersOf given) (numberOf given .limit)
  | .query => .query (filtersOf given)
  | .opening => .opening ((valueOf given .path).getD "")
  | .completions => .completions ((valueOf given .shell).getD "")
  | .config => .config

/-- The arguments of a command go together, and none is missing. -/
def check (level : Level) (given : List Given) : Except Fault Unit := do
  if isGiven given .pages && isGiven given .all then throw .conflict
  match level.placed with
  | some a => if level.needed && !isGiven given a then throw .missingArgument
  | none => return

/-- Read a command line. What stands before the command is settled last, and an argument that
stands on both sides counts where it stands after the command. -/
def read (words : List String) : Except Fault Invocation := do
  let (before, found) ← readLevel top {} words
  match found with
  | none =>
    let before ← before.settle
    throw (if before.given.isEmpty then .helpForNothing else .missingCommand)
  | some (command, rest) =>
    let (after, _) ← readLevel command.level {} rest
    let after ← after.settle
    check command.level after.given
    let before ← before.settle
    let given := after.given ++ before.given
    return {
      task := .of after.given command
      vault := valueOf given .vault
      verbose := isGiven given .verbose
      quiet := isGiven given .quiet }

end NoteSearch.CommandLine

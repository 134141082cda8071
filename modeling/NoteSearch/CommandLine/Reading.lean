import NoteSearch.CommandLine.Argument
import NoteSearch.Text.Pieces

/-!
# Reading one level of a command line

Words are taken one by one. An argument whose value may still come is open, and it is settled only
when the next argument begins or the level ends; so the faults of its value wait that long. A word
that fits nowhere ends the reading at once.
-/
namespace NoteSearch.CommandLine
open Text

/-- An argument that was given, with its value. -/
abbrev Given := Argument × String

/-- What has been read so far. -/
structure Reading where
  given : List Given := []
  /-- An argument that is not settled, with the value that it has got. -/
  pending : Option (Argument × Option String) := none
  /-- The next word is a value, unless it is an argument. -/
  wanting : Bool := false
  /-- Only arguments by place follow. -/
  trailing : Bool := false
  /-- The place is taken. -/
  placed : Bool := false
  deriving Repr, DecidableEq

namespace Reading

/-- Take in an argument that is complete. -/
def accept (r : Reading) (a : Argument) (value : Option String) : Except Fault Reading := do
  if a.takesValue && value.isNone then throw .badValue
  if a = .help then throw .help
  if a = .version then throw .version
  if !a.repeats && r.given.any (·.1 == a) then throw .conflict
  let value := value.getD ""
  match a.objection value with
  | some fault => throw fault
  | none => return { r with given := r.given ++ [(a, value)] }

/-- Settle the argument that is open. -/
def settle (r : Reading) : Except Fault Reading :=
  match r.pending with
  | none => .ok r
  | some (a, value) => { r with pending := none }.accept a value

/-- An argument begins, with the value that is attached to it. -/
def begin (r : Reading) (a : Argument) (attached : Option String) : Except Fault Reading := do
  let r ← r.settle
  if a.takesValue && attached.isNone then
    return { r with pending := some (a, none), wanting := true }
  else return { ← r.accept a attached with wanting := false }

/-- A long name, perhaps with a value after an equals sign. -/
def long (r : Reading) (level : Level) (word : List Char) : Except Fault Reading :=
  let (name, value) := match cut? ['='] word with
    | some (name, value) => (name, some (String.ofList value))
    | none => (word, none)
  match level.named.find? fun a => a.long? == some (String.ofList name) with
  | none => .error .unknownArgument
  | some a => if !a.takesValue && value.isSome then .error .needlessValue else r.begin a value

/-- Letters in a row. The first that takes a value has the rest of the word for it. -/
def letters (r : Reading) (level : Level) : List Char → Except Fault Reading
  | [] => .ok r
  | c :: cs =>
    match level.named.find? fun a => a.letter? == some c with
    | none => .error .unknownArgument
    | some a =>
      if a.takesValue then
        r.begin a (if cs.isEmpty then none else some (String.ofList ((after? ['='] cs).getD cs)))
      else do (← r.begin a none).letters level cs

/-- A word by its place. -/
def place (r : Reading) (level : Level) (word : String) : Except Fault Reading :=
  match level.placed, r.placed with
  | some a, false => do
    let r ← r.settle
    return { r with pending := some (a, some word), placed := true, wanting := false }
  | _, _ =>
    if !level.commands || (r.trailing && (word == helpWord || (Command.ofWord? word).isSome)) then
      .error .unknownArgument
    else .error .unknownCommand

/-- One word that is no command. -/
def step (r : Reading) (level : Level) (word : String) : Except Fault Reading :=
  if r.trailing then r.place level word
  else
    match word.toList with
    | ['-', '-'] => .ok { r with trailing := true }
    | '-' :: '-' :: cs => r.long level cs
    | '-' :: c :: cs => r.letters level (c :: cs)
    | _ =>
      match r.wanting, r.pending with
      | true, some (a, _) => .ok { r with pending := some (a, some word), wanting := false }
      | _, _ => r.place level word

end Reading

/-- What asking for help on some words leads to: there is help on every command. -/
def helpOn : List String → Fault
  | [] => .help
  | [word] => if word == helpWord || (Command.ofWord? word).isSome then .help else .unknownCommand
  | _ => .unknownCommand

/-- Read a level up to its end, or up to the command with the words that follow it. -/
def readLevel (level : Level) (r : Reading) :
    List String → Except Fault (Reading × Option (Command × List String))
  | [] => .ok (r, none)
  | word :: rest =>
    if level.commands && !r.trailing && !r.wanting then
      if word == helpWord then .error (helpOn rest)
      else
        match Command.ofWord? word with
        | some command => .ok (r, some (command, rest))
        | none => do readLevel level (← r.step level word) rest
    else do readLevel level (← r.step level word) rest

end NoteSearch.CommandLine

import NoteSearch.Disk.Tree
import NoteSearch.Settings.Loaded
import NoteSearch.Settings.Saved
import NoteSearch.Text.Utf8

/-!
# The file of the settings

Settings are kept in a file, which is made with the defaults when it is missing. Nothing is written
unless all of it can be.
-/
namespace NoteSearch.Settings
open Disk

/-- Why settings could not be loaded or saved. -/
inductive Fault where
  | noDirectory (cause : Disk.Fault)
  /-- A number is too large to be saved. -/
  | unsavable
  | unwritten (cause : Disk.Fault)
  | unread (cause : Disk.Fault)
  /-- The file does not set what it should. -/
  | malformed
  deriving Repr, DecidableEq

/-- What is said when a number is too large to be saved. -/
def tooLarge : String := "out-of-range value for u64 type"

/-- The fault in words. -/
def Fault.message : Fault → String
  | .noDirectory cause => "Failed to create config directory: " ++ cause.message
  | .unsavable => "Failed to serialize config: " ++ tooLarge
  | .unwritten cause => "Failed to write config file: " ++ cause.message
  | .unread cause => "Failed to read config file: " ++ cause.message
  | .malformed => "Malformed config file"

/-- Save settings in a file, with the directories around it; and the disk as it is left, whether or
not they could be saved. -/
def store (s : Settings) (t : Tree) (path : String) : Except Fault Unit × Tree :=
  match t.makeAll (directoryOf path) with
  | (.error cause, t) => (.error (.noDirectory cause), t)
  | (.ok (), t) =>
    match s.text? with
    | none => (.error .unsavable, t)
    | some text =>
      match t.write path (Text.toBytes text) {} with
      | .error cause => (.error (.unwritten cause), t)
      | .ok t => (.ok (), t)

/-- The disk with settings saved in a file. -/
def save (s : Settings) (t : Tree) (path : String) : Except Fault Tree :=
  match s.store t path with
  | (.ok (), t) => .ok t
  | (.error fault, _) => .error fault

/-- The text of bytes that are text throughout. -/
def textOf? (bytes : List UInt8) : Option String :=
  let text := Text.ofBytes bytes
  if Text.toBytes text == bytes then some text else none

/-- Load settings from a file. -/
def load (t : Tree) (path : String) : Except Fault Settings :=
  match t.read path with
  | .error cause => .error (.unread cause)
  | .ok (bytes, _) =>
    match (textOf? bytes).bind read? with
    | some s => .ok s
    | none => .error .malformed

/-- Load settings from a file, which is made if it is missing. -/
def loadOrCreate (t : Tree) (path : String) : Except Fault (Settings × Tree) :=
  match t.find path with
  | .ok _ => (load t path).map (·, t)
  | .error _ => (save {} t path).map (({} : Settings), ·)

/-- The directory of settings: the one that is set, if its path starts at the top, or else the usual
one in the user's home. -/
def directoryFor (set home : Option String) : Option String :=
  (set.filter isAbsolute).or (home.map (joined · ".config"))

/-- Where settings are kept in a directory of settings. -/
def fileIn (directory : String) : String := joined (joined directory "desk") "config.toml"

end NoteSearch.Settings

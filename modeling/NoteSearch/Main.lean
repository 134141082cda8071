import NoteSearch.Program.Basic

/-!
# The command

The program as it is run: the words of the command line, the environment and the files that matter
go in, and what the program prints and the file of its settings come out.
-/
namespace NoteSearch.Program
open Disk CommandLine

/-- How deep directories are read. Links to directories are read as directories, so without a bound
there might be no end. -/
def deepest : Nat := 40

/-- What lies at a path and below it. What cannot be read counts as a link that leads nowhere. -/
def nodesAt : (fuel : Nat) → Place → String → IO (List (Place × Node))
  | 0, _, _ => return []
  | fuel + 1, place, path => do
    try
      let here ← IO.FS.realPath path
      if ← here.isDir then
        let below ← (← here.readDir).toList.mapM fun entry =>
          nodesAt fuel (place ++ [entry.fileName]) (joined path entry.fileName)
        return (place, .directory) :: below.flatten
      else
        let modified := (← here.metadata).modified
        let bytes ← IO.FS.readBinFile here
        return [(place, .file bytes.toList ⟨modified.sec, modified.nsec.toNat⟩)]
    catch _ => return [(place, .link "\x00")]

/-- Take what lies at a path into a tree, with the directories around it. Where there is nothing,
nothing is taken. -/
def takeIn (t : Tree) (path : String) : IO Tree := do
  try
    discard (IO.FS.realPath path)
    match t.makeDirectory (directoryOf path) with
    | .error _ => return t
    | .ok t =>
      match t.locate path with
      | .error _ => return t
      | .ok place =>
        let found ← nodesAt deepest place path
        return found.foldl (fun t (place, node) => t.set place node) t
  catch _ => return t

/-- Save the file of the settings, if there is a new one. -/
def saveFile (before after : Tree) (path : String) : IO Unit := do
  match before.read path, after.read path with
  | .error _, .ok (bytes, _) =>
    IO.FS.createDirAll (directoryOf path)
    IO.FS.writeBinFile path ⟨bytes.toArray⟩
  | _, _ => return

/-- Dates are shown in universal time, whatever the clocks of the place say. -/
def zone : Time.Zone := fun _ => 0

/-- What is said about the commands. -/
def usage : String :=
  "Usage: desk [--vault PATH] [-v] [-q] COMMAND [ARGUMENTS]\n\n"
    ++ "Commands: " ++ ", ".intercalate (Command.all.map fun c => "|".intercalate c.words)

/-- Carry out what a command line asks for. -/
def main (words : List String) : IO UInt32 := do
  match CommandLine.read words with
  | .error fault =>
    (if faultCode fault = 0 then IO.println else IO.eprintln) usage
    return (faultCode fault).toUInt32
  | .ok i =>
    let env (name : String) : IO (Option String) := IO.getEnv name
    let some directory := Settings.directoryFor (← env "XDG_CONFIG_HOME") (← env "HOME")
      | do
        IO.eprintln "Error: Could not determine config directory"
        return 1
    let file := Settings.fileIn directory
    let before ← takeIn {} file
    let named := match Settings.loadOrCreate before file with
      | .ok (settings, _) => settings.root i.vault
      | .error _ => none
    let disk ← match named with
      | some root => takeIn before root
      | none => pure before
    let styled := Display.stylesShown (← env "CLICOLOR_FORCE") (← env "NO_COLOR") (← env "CLICOLOR")
      (← (← IO.getStdout).isTty)
    let (result, after) := run disk file styled zone i
    saveFile disk after file
    IO.print result.text
    match result.failure with
    | some failure => IO.eprintln ("Error: " ++ failure.message)
    | none => pure ()
    return result.code.toUInt32

end NoteSearch.Program

def main (words : List String) : IO UInt32 := NoteSearch.Program.main words

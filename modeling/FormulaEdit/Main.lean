import FormulaEdit.Command.Run

/-!
# The program

The command line is run on the part of the disk that it names; what it changed
there is written back afterwards.
-/

namespace FormulaEdit.Program

/-- Add what is at a path, if anything, to a disk.  Only a directory has a
place of its own inside it. -/
def loadPath (disk : Disk) (path : Path) : IO Disk := do
  let place := Disk.origin path ++ path.parts
  try
    let _ ← IO.FS.realPath (path.text ++ "/.")
    return { disk with directories := disk.directories ++ [place] }
  catch _ =>
    try
      let content ← IO.FS.readFile path.text
      return disk.put place content
    catch _ => return disk

/-- All beginnings of a path, itself included. -/
def beginnings (path : Path) : List Path :=
  (List.range (path.parts.length + 1)).map fun count =>
    { path with parts := path.parts.take count }

/-- The part of the disk that paths name. -/
def loadDisk (paths : List Path) : IO Disk :=
  (paths.flatMap beginnings).foldlM loadPath {}

/-- The path of a place. -/
def pathOf (place : Place) : Path :=
  match place with
  | "/" :: parts => ⟨parts, true⟩
  | parts => ⟨parts, false⟩

/-- Write back the directories and files that are new or changed. -/
def storeDisk (before after : Disk) : IO Unit := do
  for place in after.directories do
    if !before.directories.contains place then IO.FS.createDirAll (pathOf place).text
  for (place, content) in after.files do
    if before.file? place ≠ some content then IO.FS.writeFile (pathOf place).text content

/-- The disk that a command line is run on. -/
def diskFor (arguments : List String) : IO Disk :=
  match Command.Request.read arguments with
  | .ok request => loadDisk request.paths
  | .error _ => return {}

end FormulaEdit.Program

open FormulaEdit in
/-- Run the command line. -/
def main (arguments : List String) : IO UInt32 := do
  let settings := Settings.ofVariables (← IO.getEnv "SMTBOOK_INDENT")
    (← IO.getEnv "SMTBOOK_REPLAY_MAX_STEPS")
  let before ← Program.diskFor arguments
  let report := Command.run settings before arguments
  Program.storeDisk before report.disk
  IO.print report.output
  IO.eprint report.errors
  match report.failure with
  | some failure => IO.eprintln failure.message
  | none => pure ()
  return (report.exit.getD 1).toUInt32

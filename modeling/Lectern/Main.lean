import Lectern.Command.Reply
import Lectern.Theme.Packaged

/-!
# The program

Reads the files that a command can reach, does what it asks for, and writes what has changed.  Only
this module touches the disk.
-/

namespace Lectern.Program

/-- Where the packaged theme is planted. -/
def packagedPlace : List Text := ["lectern".toList, "themes".toList]

/-- The parts of a path of the disk. -/
def placeOf (path : String) : List Text := (Path.ofText path.toList).parts

/-- The path of a place on the disk. -/
def diskPath (place : List Text) : String := String.ofList (Path.absolute place).toText

/-- Adds a place with everything below it to the files; one that is not there adds nothing. -/
partial def gather (files : FileTree) (place : List Text) : IO FileTree := do
  let here := (← IO.currentDir) / diskPath place
  if ← here.isDir then
    let entries ← here.readDir
    entries.foldlM (fun files entry => gather files (place ++ [entry.fileName.toList]))
      (if place.isEmpty then files else files.plant place .folder)
  else if ← here.pathExists then
    return files.plant place (.file (← IO.FS.readBinFile here).toList)
  else return files

/-- The settings that the environment gives. -/
def settingsFromEnvironment : IO (Except (List Settings.Fault) Settings) := do
  let pairs ← Settings.fieldNames.filterMapM fun field => do
    let name := (String.ofList Settings.variablePrefix ++ field).toUpper
    return (← IO.getEnv name).map fun value => (name.toList, value.toList)
  return Settings.ofEnvironment pairs

/-- Writes every folder and file that is not as it was before. -/
def writeChanges (before after : FileTree) : IO Unit :=
  (after.below []).forM fun (place, node) => do
    if before.node? place ≠ some node then
      match node with
      | .folder => IO.FS.createDirAll (diskPath place)
      | .file content => IO.FS.writeBinFile (diskPath place) ⟨content.toArray⟩

/-- The places outside of the working folder that a command speaks of. -/
def farPlaces (settings : Settings) (here : List Text) : Command.Request → List (List Text)
  | .build o =>
    let order := o.order settings (Path.absolute packagedPlace)
    let named := [order.input, order.themes] ++ order.output?.toList
    ((named.map (·.resolve here)).filter fun p => !(here.isPrefixOf p)).eraseDups
  | _ => []

/-- Does what a command asks for and answers its exit code. -/
def run (arguments : List String) : IO UInt32 := do
  match ← settingsFromEnvironment with
  | .error faults =>
    IO.eprintln (String.ofList (Settings.faultsMessage faults))
    return 1
  | .ok settings => do
    let here := placeOf (← IO.currentDir).toString
    let request := Command.read (arguments.map String.toList)
    let places := match request with
      | .ok (.build o) => here :: farPlaces settings here (.build o)
      | _ => []
    let found ← places.foldlM gather FileTree.empty
    let files := Theme.Packaged.plant packagedPlace found
    let (result, journal) :=
      (Command.perform settings (Path.absolute packagedPlace) files here request).outcome
    for line in shownLines (some (Command.loudness request)) journal do
      IO.eprintln (String.ofList line)
    match result with
    | .error fault =>
      IO.eprintln (String.ofList fault.message)
      return 1
    | .ok reply => do
      writeChanges files reply.files
      reply.printed.forM fun line => IO.println (String.ofList line)
      reply.complaints.forM fun line => IO.eprintln (String.ofList line)
      return reply.exitCode.toUInt32

end Lectern.Program

def main (arguments : List String) : IO UInt32 := Lectern.Program.run arguments

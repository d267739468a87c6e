import PeerCalls.CommandLine.Launch

/-!
# The program

Starts what its command line asks for. A client writes down its findings as they
are made, at the pace of the clock of the machine, in a network of its own; the
calls that it keeps are read from its directory at the start and written back as
they come and go. A server waits for clients.
-/

namespace PeerCalls.Program

open CommandLine

/-- What follows the first line about a refused command line. -/
def usage : String :=
  "\nUsage: peer-calls [OPTIONS] <ADDRESS>\n\nFor more information, try '--help'.\n"

/-- How the program is used. -/
def helpText : String :=
  "Runs a server for divisions, or a client that asks for a stream of them\n\n"
    ++ "Usage: peer-calls [OPTIONS] <ADDRESS>\n\n"
    ++ "Arguments:\n  <ADDRESS>  where the server listens\n\n"
    ++ "Options:\n"
    ++ "      --client-id <CLIENT_ID>      run as the client with this id\n"
    ++ "      --backlog-dir <BACKLOG_DIR>  keep pending calls in this directory\n"
    ++ "  -v, --verbose                    say more\n"
    ++ "  -h, --help                       show this help\n"

/-- The directory of calls to the server. -/
def serverDirectory (directory : String) : String := directory ++ "/server"

/-- Add the entry at a path, and say whether it is a directory. -/
def surveyEntry (disk : FileSystem) (path : String) : IO (FileSystem × Bool) := do
  try
    let place ← IO.FS.realPath path
    if ← place.isDir then
      return (disk.withDirectory (Path.ofText path), true)
    else if ← place.pathExists then
      return (disk.withEntry (Path.ofText path) (.file []), false)
    else return (disk, false)
  catch _ => return (disk, false)

/-- The paths to a directory and to all directories above it, from the top. -/
def pathsTo (directory : String) : List String :=
  let ends := (List.range directory.length).filter fun position =>
    directory.toList[position]? == some '/' && position > 0
  ends.map (fun position => String.ofList (directory.toList.take position)) ++ [directory]

/-- Read what a directory of calls holds, in the order in which it is listed, and what is on
the way to it. -/
def survey (directory : String) : IO FileSystem := do
  let place := serverDirectory directory
  let mut disk := { FileSystem.empty with order := .oldestFirst }
  for path in pathsTo place do
    let (found, isDirectory) ← surveyEntry disk path
    disk := found
    if isDirectory && path == place then
      for file in ← (← IO.FS.realPath path).readDir do
        let content ← IO.FS.readBinFile file.path
        disk := disk.withEntry (Path.ofText path ++ [Bytes.ofText file.fileName])
          (.file content.data.toList)
  return disk

/-- The files that a demonstration keeps in its directory. -/
def keptFiles (demonstration : Demonstration) (directory : String) : List (String × Bytes) :=
  match demonstration.network.backlogAt (some 0) with
  | some { store := .files _ disk, .. } =>
    disk.entries.filterMap fun (path, entry) =>
      match FileSystem.nameIn? (Path.ofText (serverDirectory directory)) path, entry with
      | some name, .file content =>
        some (serverDirectory directory ++ "/" ++ FileBacklog.nameText name, content)
      | _, _ => none
  | _ => []

/-- Write the files that have changed, and remove those that are gone. -/
def writeBack (directory : String) (before after : List (String × Bytes)) : IO Unit := do
  for (path, content) in after do
    if before.lookup path != some content then
      IO.FS.createDirAll (serverDirectory directory)
      IO.FS.writeBinFile path ⟨content.toArray⟩
  for (path, _) in before do
    if (after.lookup path).isNone then
      IO.FS.removeFile path

/-- How often a demonstration is looked at. -/
def tick : Span := Span.ofMilliseconds 100

/-- Let a demonstration go on, and write down what it finds. -/
partial def follow (demonstration : Demonstration) (directory : Option String) : IO Unit := do
  let next := demonstration.advance (demonstration.network.now + tick.nanoseconds)
  for line in next.lines.toList.drop demonstration.lines.size do
    IO.println (line.finding.severity ++ " " ++ line.message fun id => toString id.toNat)
  if let some directory := directory then
    writeBack directory (keptFiles demonstration directory) (keptFiles next directory)
  IO.sleep 100
  follow next directory

/-- Wait for clients. -/
partial def wait : IO Unit := do
  IO.sleep 1000
  wait

/-- The directory that a command line names. -/
def directoryOf (written : List String) : Option String :=
  match Arguments.parse written with
  | .ok arguments => arguments.backlogDirectory
  | .error _ => none

/-- Run a command line: the code with which the program ends. -/
def run (written : List String) : IO UInt32 := do
  let directory := directoryOf written
  let disk ← match directory with
    | some directory => survey directory
    | none => pure FileSystem.empty
  match launch written disk with
  | .help =>
    IO.print helpText
    return 0
  | .refused refusal =>
    IO.eprint ("error: " ++ refusal.message ++ "\n" ++ usage)
    return 2
  | .failed fault =>
    IO.eprint fault.report
    return 1
  | .client demonstration =>
    follow demonstration directory
    return 0
  | .server =>
    wait
    return 0

end PeerCalls.Program

def main (arguments : List String) : IO UInt32 :=
  PeerCalls.Program.run arguments

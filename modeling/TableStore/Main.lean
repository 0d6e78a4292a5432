import TableStore.Arguments
import TableStore.Shell

/-!
# Command line

Connects the shell to the terminal and to files; what is recorded is not shown. Every line is first
run on a storage that takes all; its calls are then made on the directory, and the line is run again
with the calls that the directory refused. The reply is that of the second run.
-/
namespace TableStore.Main

def usage : String :=
  "Usage: jsondb [OPTIONS]\n\n" ++
  "Options:\n" ++
  "      --data-dir <DATA_DIR>  Directory holding one document per database [default: data]\n" ++
  "  -c, --command <COMMAND>    Execute a single statement and exit\n" ++
  "  -f, --file <FILE>          Execute statements from a file, one per line\n" ++
  "  -h, --help                 Print help\n" ++
  "  -V, --version              Print version\n"

def stopMessage : Arguments.Stop → String
  | .missingValue => "error: an option lacks its value"
  | .repeated => "error: an option is given more than once"
  | .unknown => "error: unexpected argument"
  | .surplusValue => "error: an option takes no value"
  | .help => usage
  | .version => "jsondb 0.1.0"

def printAll (outputs : List Output) : IO Unit := do
  let out ← IO.getStdout
  let err ← IO.getStderr
  for o in outputs do
    match o with
    | .out s => out.putStr s
    | .err s => err.putStr s
    | .log _ => pure ()
  out.flush

/-- The words for what the system refuses. -/
def reasonText (e : IO.Error) : String :=
  match e with
  | .noFileOrDirectory .. => StorageError.noSuchFile.message
  | .alreadyExists .. => StorageError.fileExists.message
  | .inappropriateType _ 20 _ => StorageError.notFolder.message
  | .inappropriateType _ 21 _ => StorageError.isFolder.message
  | .invalidArgument _ 36 _ => StorageError.nameTooLong.message
  | e => toString e

/-- What the directory holds; it is made if it is not there. -/
def readDirectory (path : String) : IO Directory := do
  let dir := (← IO.currentDir) / path
  IO.FS.createDirAll dir
  let mut files := NameMap.empty
  for entry in ← dir.readDir do
    if ← entry.path.isDir then
      files := files.insert entry.fileName .folder
    else
      files := files.insert entry.fileName (.file (.ofBytes (← IO.FS.readBinFile entry.path)))
  let location := (← IO.FS.realPath dir).components.filter Path.leadsOn
  return .holding location files

/-- Makes a storage call on the directory; the reason is given if it is refused. -/
def performCall (path : String) (s : Session) (call : StorageCall) : IO (Option String) := do
  if call.name.contains '\x00' then return some StorageError.zeroCharacter.message
  let file := (← IO.currentDir) / path / Directory.fileName call.name
  try
    match call with
    | .save name =>
      match s.catalog.databases.get? name with
      | some d => IO.FS.writeFile file (Document.text d)
      | none => pure ()
    | .remove _ => if ← file.pathExists then IO.FS.removeFile file
    return none
  catch e => return some (reasonText e)

def reasonFor (refused : List (StorageCall × String)) (call : StorageCall) : Option StorageError :=
  (refused.lookup call).map .refused

/-- Runs an operation with the directory behind it. -/
def withDirectory {α : Type} (path : String) (s : Session) (run : Session → Session × α) :
    IO (Session × α) := do
  let storage : Storage := { store := .memory .empty }
  let trial := run { s with storage := storage }
  let mut refused := []
  for r in trial.1.storage.calls do
    match ← performCall path trial.1 r.call with
    | some reason => refused := (r.call, reason) :: refused
    | none => pure ()
  let found := refused
  let faults : Faults :=
    { save := fun n => reasonFor found (.save n), remove := fun n => reasonFor found (.remove n) }
  return run { s with storage := { storage with faults := faults } }

/-- Runs a line and says whether to go on. -/
def runLine (path : String) (s : Session) (line : String) : IO (Session × Bool) := do
  let (s, outputs, goesOn) ← withDirectory path s (Shell.runLine · line)
  printAll outputs
  return (s, goesOn)

def runLines (path : String) (s : Session) : List String → IO Session
  | [] => return s
  | line :: lines => do
    let (s, goesOn) ← runLine path s line
    if goesOn then runLines path s lines else return s

/-- The bytes up to the next line feed, and with it. -/
partial def readLine (done : ByteArray) : IO ByteArray := do
  let byte ← (← IO.getStdin).read 1
  let done := done ++ byte
  if byte.isEmpty || byte.toList == [10] then return done else readLine done

partial def converse (path : String) (s : Session) : IO Session := do
  printAll [Shell.prompt s]
  match (Content.ofBytes (← readLine .empty)).lines with
  | [] =>
    printAll [.out "\n", Shell.farewell]
    return s
  | none :: _ => throw (IO.userError Shell.notText)
  | some line :: _ =>
    let (s, goesOn) ← runLine path s line
    if goesOn then converse path s
    else
      printAll [Shell.farewell]
      return s

def runSession (a : Arguments) (s : Session) : IO Session := do
  match a.command, a.script with
  | some line, _ => return (← runLine a.directory s line).1
  | none, some file =>
    match Content.ofBytes (← IO.FS.readBinFile file) with
    | .text t => runLines a.directory s (Content.linesOfText t)
    | .binary _ => throw (IO.userError Shell.notText)
  | none, none =>
    printAll [Shell.banner]
    converse a.directory s

/-- A session on the directory. -/
def openDirectory (path : String) : IO Session := do
  let found : Except Error Session ←
    try
      let d ← readDirectory path
      pure (Session.open { store := .directory d })
    catch e => pure (.error (.ofStorage (.refused (reasonText e))))
  match found with
  | .ok s => return s
  | .error e => throw (IO.userError e.text)

def runAll (a : Arguments) : IO UInt32 := do
  try
    let s ← openDirectory a.directory
    let s ← runSession a s
    let (_, r) ← withDirectory a.directory s Session.flush
    match r with
    | .ok () => return 0
    | .error e => throw (IO.userError e.text)
  catch e =>
    printAll [Shell.failure (reasonText e)]
    return 1

end TableStore.Main

open TableStore in
def main (arguments : List String) : IO UInt32 := do
  match Arguments.read arguments with
  | .ok a => Main.runAll a
  | .error .help => Main.printAll [.out Main.usage]; return 0
  | .error .version => Main.printAll [.out (Main.stopMessage .version ++ "\n")]; return 0
  | .error e => Main.printAll [.err (Main.stopMessage e ++ "\n\n" ++ Main.usage)]; return 2

import RemoteAgent.Agent.Session
import Std.Time.DateTime.Timestamp

/-!
# The agent's program

The outer layer: carries out calls on the real files, serves on the standard streams, and ends the
process as its session says.
-/

namespace RemoteAgent.Agent

/-- A failure with a number; one that is not known by it keeps its text. -/
def numberedFailure (number : UInt32) (text : String) : IoError :=
  match SystemError.ofNumber? number.toNat with
  | some cause => .system cause
  | none => .custom .other text

def runtimeFailure (e : IO.Error) : IoError :=
  match e with
  | .alreadyExists _ number text | .permissionDenied _ number text
  | .noFileOrDirectory _ number text | .invalidArgument _ number text
  | .inappropriateType _ number text | .resourceExhausted _ number text
  | .noSuchThing _ number text | .otherError number text | .resourceBusy number text
  | .resourceVanished number text | .unsupportedOperation number text
  | .unsatisfiedConstraints number text | .illegalOperation number text =>
    numberedFailure number text
  | .interrupted _ _ text => .custom .interrupted text
  | e => .custom .other (toString e)

def outcomeOf {α : Type} (act : IO α) : IO (Except IoError α) := do
  try
    return .ok (← act)
  catch e =>
    return .error (runtimeFailure e)

/-- The permissions of a copied executable: its owner may do everything with it. -/
def ownersRights : IO.FileRight where
  user := { read := true, write := true, execution := true }
  group := {}
  other := {}

/-- Makes sure of the first path, by means of the others, which are those above it. -/
def makeAll : List Path → IO Unit
  | [] => return ()
  | p :: above => do
    let there := (← IO.currentDir) / p.text
    let settle (act : IO Unit) : IO Unit := do
      try act
      catch e => if !(← there.isDir) then throw e
    try IO.FS.createDir there
    catch
      | .noFileOrDirectory _ _ _ =>
        makeAll above
        settle (IO.FS.createDir there)
      | e => settle (throw e)

/-- Copies a file; nothing else is copied. -/
def copyFile (source destination : Path) : IO Unit := do
  let metadata ← ((← IO.currentDir) / source.text).metadata
  if metadata.type != .file then throw (IO.userError FileTree.notCopied.message)
  IO.FS.writeBinFile destination.text (← IO.FS.readBinFile source.text)
  IO.setAccessRights destination.text ownersRights

def carryOut : (c : FileCall) → IO c.Answer
  | .list directory => do
    let entries ← ((← IO.currentDir) / directory.text).readDir
    entries.toList.mapM fun (e : IO.FS.DirEntry) => do
      let isDirectory := (← e.path.symlinkMetadata).type == .dir
      return ({ name := e.fileName, isDirectory } : FileTree.Entry)
  | .accessTime path => do
    let accessed := (← ((← IO.currentDir) / path.text).metadata).accessed
    return Timestamp.ofSeconds accessed.sec accessed.nsec.toNat
  | .removeTree directory => IO.FS.removeDirAll directory.text
  | .makeDirectories directory => makeAll directory.withAbove
  | .rename source destination => IO.FS.rename source.text destination.text
  | .copy source destination => copyFile source destination
  | .removeFile path => IO.FS.removeFile path.text

def runOnFiles {α : Type} : FileProgram α → IO α
  | .done result => return result
  | .call c next => do
    let outcome ← outcomeOf (carryOut c)
    runOnFiles (next outcome)

partial def serveOn (input output : IO.FS.Stream) (serving : Serving) :
    IO (Except AgentError Unit) := do
  match StreamMachine.action serving with
  | .finish result => return result
  | .write bytes next =>
    let written ← outcomeOf (output.write ⟨bytes.toArray⟩)
    serveOn input output (next (written.map fun _ => bytes.length))
  | .flush next => serveOn input output (next (← outcomeOf output.flush))
  | .read limit next =>
    let bytes ← outcomeOf (input.read limit.toUSize)
    serveOn input output (next (bytes.map (·.toList)))

def currentTime : IO Timestamp :=
  return ⟨(← Std.Time.Timestamp.now).toNanosecondsSinceUnixEpoch.val⟩

/-- Waits for so many tenths of a second. Gives up, and says so, if the wait is called off. -/
def waitTenths : Nat → IO Bool
  | 0 => return true
  | n + 1 => do
    if ← IO.checkCanceled then return false
    IO.sleep 100
    waitTenths n

/-- Keeps house until called off. -/
partial def keepHouse (agents : Path) : IO Unit := do
  let _ ← runOnFiles (housekeep agents (← currentTime))
  if ← waitTenths (10 * sweepInterval.seconds) then keepHouse agents

def serveStandard (s : Surroundings) : IO Exit := do
  let housekeeping ← s.home.mapM fun home => IO.asTask (keepHouse (agentsDirectory home))
  let result ← serveOn (← IO.getStdin) (← IO.getStdout) (.start Version.current)
  housekeeping.forM fun task => IO.cancel task
  return .ofResult endpointContext result

def runSession (s : Surroundings) (args : List String) : IO Exit := do
  match prepare s.filterVariable args with
  | .error exit => return exit
  | .ok task =>
    match ← runOnFiles (perform s task) with
    | some exit => return exit
    | none => serveStandard s

end RemoteAgent.Agent

open RemoteAgent Agent in
def main (args : List String) : IO UInt32 := do
  let surroundings : Surroundings :=
    { home := (← IO.getEnv "HOME").map RemoteAgent.Path.mk
      executable := ⟨toString (← IO.appPath)⟩
      filterVariable := ← IO.getEnv "RUST_LOG" }
  let exit ← runSession surroundings args
  IO.print exit.output
  match exit.report with
  | some report => IO.eprint report.text
  | none => if exit.code ≠ 0 then IO.eprint CommandLine.usage
  return exit.code.toUInt32

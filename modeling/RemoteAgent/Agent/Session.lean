import RemoteAgent.Agent.CommandLine
import RemoteAgent.Agent.Housekeeping
import RemoteAgent.Agent.Installation
import RemoteAgent.Agent.Report
import RemoteAgent.Agent.Serving

/-!
# Sessions of the agent

What comes of a command line: the task to be done, and how the process ends once it is done.
-/

namespace RemoteAgent.Agent

structure Exit where
  code : Nat
  /-- What is put on standard output before. -/
  output : String
  report : Option Report
  deriving DecidableEq, Repr

namespace Exit

def success (output : String) : Exit :=
  ⟨0, output, none⟩

def failure (report : Report) : Exit :=
  ⟨1, "", some report⟩

/-- The end after a command line that cannot be read. -/
def misused : Exit :=
  ⟨2, "", none⟩

/-- The end after something that may have failed. -/
def ofResult (context : String) : Except AgentError Unit → Exit
  | .ok () => success ""
  | .error e => failure (.ofError context e)

end Exit

def filterContext : String := "invalid log level"

def installContext : String := "installation failed"

def endpointContext : String := "endpoint failed"

/-- The task that a command line names, or how the process ends without one. -/
def prepare (filterVariable : Option String) (args : List String) : Except Exit Task :=
  match CommandLine.read args with
  | none => .error .misused
  | some .help => .error (.success CommandLine.usage)
  | some (.run logLevel task) =>
    match LogFilter.choose filterVariable logLevel with
    | .ok _ => .ok task
    | .error cause => .error (.failure ⟨filterContext, cause.chain⟩)

structure Surroundings where
  home : Option Path
  executable : Path
  /-- The variable of the environment that holds a log filter. -/
  filterVariable : Option String

/-- The installation that a process is told to make. -/
def installSelf (s : Surroundings) : FileProgram (Except AgentError Unit) :=
  match s.home with
  | some home => install s.executable home
  | none => return .error .homeDirectory

/-- Does what needs no client. Serving one is left to be done. -/
def perform (s : Surroundings) : Task → FileProgram (Option Exit)
  | .version => return some (.success (Version.current.text ++ "\n"))
  | .legal => return some (.success legalNotice)
  | .install => do
    let result ← installSelf s
    return some (.ofResult installContext result)
  | .endpoint => return none

/-- The sweep that begins the housekeeping of an agent that serves. -/
def firstSweep (s : Surroundings) (now : Timestamp) : FileProgram Unit := do
  match s.home with
  | some home => housekeepTimes (agentsDirectory home) now 1
  | none => return ()

/-- Serves a client on a stream. -/
def serveSession {σ : Type} [ByteStream σ] (stream : σ) : Exit × σ :=
  let (result, stream) := serve Version.current stream
  (.ofResult endpointContext result, stream)

/-- A short session, with a client on a stream if it comes to that. -/
def session {σ : Type} [ByteStream σ] (s : Surroundings) (now : Timestamp) (args : List String)
    (stream : σ) : FileProgram (Exit × σ) := do
  match prepare s.filterVariable args with
  | .error exit => return (exit, stream)
  | .ok task =>
    match ← perform s task with
    | some exit => return (exit, stream)
    | none =>
      firstSweep s now
      return serveSession stream

end RemoteAgent.Agent

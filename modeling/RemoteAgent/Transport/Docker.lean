import RemoteAgent.Command
import RemoteAgent.Endpoint.Basic
import RemoteAgent.Platform.EnvironmentDump
import RemoteAgent.Transport.Basic

/-!
# Transport into containers

A container client runs commands in a container and copies files into it. What kind of container it
is is found out once, when it is first needed, and remembered, a failure too. A Windows container
has to be stopped for a copy, which the user has to agree to. -/

namespace RemoteAgent

structure ContainerProperties where
  windows : Bool
  /-- The home directory of the user that commands run as. -/
  home : String
  user : String
  /-- The primary group of the user, empty on Windows. -/
  group : String
  deriving DecidableEq, Repr

/-- What is remembered of a container: nothing yet, its properties, or why they are not known. -/
abbrev ContainerMemory := Option (Except String ContainerProperties)

/-- A world together with what is remembered of a container. -/
structure WithContainer (ω : Type) where
  outer : ω
  memory : ContainerMemory

namespace WithContainer

variable {ω ε α : Type}

/-- A step in the world outside. -/
def lift (x : Effect ω ε α) : Effect (WithContainer ω) ε α :=
  x.within outer fun w outer => { w with outer }

end WithContainer

structure Docker where
  endpoint : Endpoint
  executable : String
  /-- How many unclear answers are put up with. It stands for asking without end: where an answer
  comes in time, it makes no difference. -/
  patience : Nat

namespace Docker

/-- The variables of an endpoint that the client is given. -/
def variableNames : List String :=
  ["DOCKER_HOST", "DOCKER_TLS_VERIFY", "DOCKER_CERT_PATH"]

/-- Reaches the container that an endpoint names, with the usual client. -/
def new (endpoint : Endpoint) : Docker where
  endpoint := endpoint
  executable := "docker"
  patience := 0x4000000000000000

/-- The question that comes before a container is stopped. -/
def restartQuestion : String :=
  "Copying the agent into a Windows container requires stopping " ++
    "and restarting the container. Continue? (yes/no): "

def clientCommand (d : Docker) (arguments : List String) : Command :=
  (Command.new d.executable arguments).withVariables (d.endpoint.resolve variableNames)

/-- The user that commands run as, if it is not the default. -/
def configuredUser (d : Docker) : Option String :=
  if d.endpoint.username.isEmpty then none else some d.endpoint.username

def execCommand (d : Docker) (arguments : List String) (directory user : Option String) :
    Command :=
  let user := match user with
    | some user => ["--user", user]
    | none => []
  let directory := match directory with
    | some directory => ["--workdir", directory]
    | none => []
  d.clientCommand
    (["exec", "--interactive"] ++ user ++ directory ++ d.endpoint.hostname :: arguments)

variable {ω : Type}

def ask (d : Docker) (host : Host ω) (arguments : List String) : Effect ω TransportError String :=
  runToEnd (host.start (d.execCommand arguments none d.configuredUser))

/-- The value of a variable in the environment of the container. -/
def known (environment name : String) : Except TransportError String :=
  match EnvironmentDump.value? environment name with
  | some value => .ok value
  | none => .error (.container (name ++ " is not set"))

def probePosix (d : Docker) (host : Host ω) : Effect ω TransportError ContainerProperties := do
  let environment ← d.ask host ["env"]
  let home ← Effect.ofExcept (known environment "HOME")
  let user ← d.ask host ["id", "-un"]
  let group ← d.ask host ["id", "-gn"]
  return { windows := false, home, user := Text.trim user, group := Text.trim group }

def probeWindows (d : Docker) (host : Host ω) : Effect ω TransportError ContainerProperties := do
  let environment ← d.ask host ["cmd", "/c", "set"]
  let home ← Effect.ofExcept (known environment "USERPROFILE")
  let user ← Effect.ofExcept (known environment "USERNAME")
  return { windows := true, home, user, group := "" }

/-- The properties of the container, or why they cannot be found out. -/
def probe (d : Docker) (host : Host ω) : Effect ω String ContainerProperties := do
  match ← (d.probePosix host).attempt with
  | .ok properties => return properties
  | .error posix =>
    match ← (d.probeWindows host).attempt with
    | .ok properties => return properties
    | .error windows => throw s!"POSIX: {posix.message}; Windows: {windows.message}"

/-- The properties of the container, found out if they are not remembered. -/
def properties (d : Docker) (host : Host ω) :
    Effect (WithContainer ω) TransportError ContainerProperties := do
  match (← get).memory with
  | some found => Effect.ofExcept (found.mapError .container)
  | none =>
    let found ← (WithContainer.lift (d.probe host)).attempt
    modify fun w => { w with memory := some found }
    Effect.ofExcept (found.mapError .container)

/-- What asking comes to when no patience is left. -/
def outOfPatience : TransportError :=
  .prompt (.failed "no clear answer")

/-- Asks until the answer is yes or no. -/
def confirmRestart (p : Prompter ω) : Nat → Effect ω TransportError Unit
  | 0 => throw outOfPatience
  | patience + 1 => do
    let answer ← (p.prompt restartQuestion).mapError .prompt
    match Text.trim answer with
    | "yes" => return
    | "no" => throw (.cancelled "container restart declined")
    | _ => confirmRestart p patience

def runClient (d : Docker) (host : Host ω) (arguments : List String) :
    Effect ω TransportError Unit := do
  let _ ← runToEnd (host.start (d.clientCommand arguments))

/-- Stops the container, copies and starts the container again, whatever became of the copy. -/
def copyStopped (d : Docker) (host : Host ω) (source : Path) (destination : String) :
    Effect ω TransportError Unit := do
  d.runClient host ["stop", d.endpoint.hostname]
  let copied ← (d.runClient host ["cp", source.text, destination]).attempt
  let started ← (d.runClient host ["start", d.endpoint.hostname]).attempt
  Effect.ofExcept copied
  Effect.ofExcept started

/-- Copies into a Windows container, for which the user has to agree to a restart. -/
def copyIntoWindows (d : Docker) (host : Host ω) (p : Prompter ω) (source : Path)
    (destination : String) : Effect ω TransportError Unit := do
  confirmRestart p (d.patience + 1)
  d.copyStopped host source destination

/-- Copies into a POSIX container. The client writes as root, so the file is given to its user. -/
def copyIntoPosix (d : Docker) (host : Host ω) (c : ContainerProperties) (source : Path)
    (remote : String) : Effect ω TransportError Unit := do
  d.runClient host ["cp", source.text, d.endpoint.hostname ++ ":" ++ remote]
  let owner := if c.group.isEmpty then c.user else c.user ++ ":" ++ c.group
  let _ ← runToEnd (host.start (d.execCommand ["chown", owner, remote] none (some "root")))

def transport (d : Docker) (host : Host ω) (p : Prompter ω) :
    Transport (WithContainer ω) Command where
  copy file name := do
    let c ← d.properties host
    if c.windows then
      let remote := c.home ++ "\\" ++ name
      WithContainer.lift
        (d.copyIntoWindows host p file.path (d.endpoint.hostname ++ ":" ++ remote))
    else
      WithContainer.lift (d.copyIntoPosix host c file.path (c.home ++ "/" ++ name))
  command line := do
    let c ← d.properties host
    let shell := if c.windows then ["cmd", "/c", line] else ["sh", "-c", line]
    return d.execCommand shell (some c.home) d.configuredUser
  start c := WithContainer.lift (host.start c)

end Docker

end RemoteAgent

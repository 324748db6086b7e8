import RemoteAgent.SortedMap

/-!
# Endpoints

An endpoint is one side of a synchronized pair: how it is reached, where it is, and the environment
meant for the clients that reach it. A variable can be set for one side only.
-/

namespace RemoteAgent

inductive Protocol where
  /-- On this host, served in this process. -/
  | localHost
  /-- Through a pipe in memory, served in this process. -/
  | inMemory
  | ssh
  | docker
  | ipfs
  deriving DecidableEq, Repr

/-- Whether endpoints are served in this process. -/
def Protocol.isInProcess : Protocol → Bool
  | localHost | inMemory => true
  | _ => false

def Protocol.text : Protocol → String
  | localHost => "local"
  | inMemory => "memory"
  | ssh => "ssh"
  | docker => "docker"
  | ipfs => "ipfs"

/-- The side of the pair that an endpoint is. -/
inductive Side where
  | alpha | beta
  deriving DecidableEq, Repr

/-- The name of a side in names of variables. -/
def Side.infixName : Side → String
  | alpha => "ALPHA"
  | beta => "BETA"

structure Endpoint where
  protocol : Protocol
  side : Side
  /-- The remote user, empty for the default. -/
  username : String
  /-- A host, a container or a peer of the gateway. -/
  hostname : String
  port : Option UInt16
  /-- The root of what is synchronized. -/
  path : String
  environment : SortedMap String
  deriving DecidableEq, Repr

namespace Endpoint

def new (protocol : Protocol) (side : Side) (hostname : String) : Endpoint where
  protocol := protocol
  side := side
  username := ""
  hostname := hostname
  port := none
  path := ""
  environment := .empty

def withUsername (e : Endpoint) (username : String) : Endpoint :=
  { e with username }

def withVariable (e : Endpoint) (name value : String) : Endpoint :=
  { e with environment := e.environment.insert name value }

/-- The name under which a variable is set for one side only. -/
def overrideName (side : Side) (name : String) : String :=
  "TETHER_" ++ side.infixName ++ "_" ++ name

/-- The value of a variable: the one set for this side, or else the one set for both. -/
def lookup (e : Endpoint) (name : String) : Option String :=
  (e.environment.find? (overrideName e.side name)).or (e.environment.find? name)

/-- The variables among `names` that have a value. -/
def resolve (e : Endpoint) (names : List String) : List (String × String) :=
  names.filterMap fun name => (e.lookup name).map fun value => (name, value)

/-- The endpoint as `user@host`, or the host alone. -/
def remoteTarget (e : Endpoint) : String :=
  if e.username.isEmpty then e.hostname else e.username ++ "@" ++ e.hostname

end Endpoint

end RemoteAgent

import RemoteAgent.Path
import RemoteAgent.Version

/-!
# Agents

What an agent can fail at, and where agents live: every version has a directory of its own below the
home directory, named by the version's text. -/

namespace RemoteAgent

inductive AgentError where
  | protocol (cause : ProtocolError)
  | versionMismatch (remote own : Version)
  | homeDirectory
  | io (cause : IoError)
  deriving DecidableEq, Repr

def AgentError.message : AgentError → String
  | protocol cause => s!"Handshake error: {cause.message}"
  | versionMismatch remote own =>
    s!"Version mismatch: client {remote.text}, agent {own.text}"
  | homeDirectory => "Unable to determine home directory"
  | io cause => s!"I/O error: {cause.message}"

namespace Agent

/-- The directory below the home directory that holds all data. -/
def dataDirectoryName : String := ".tether"

/-- The directory below that holds a directory for each version. -/
def agentsDirectoryName : String := "agents"

def baseName : String := "tether-agent"

def ownSystem : String := "linux"

def executableName (os : String) : String :=
  if os = "windows" then baseName ++ ".exe" else baseName

def agentsDirectory (home : Path) : Path :=
  (home.join dataDirectoryName).join agentsDirectoryName

def installPath (agents : Path) : Path :=
  (agents.join Version.current.text).join (executableName ownSystem)

def legalNotice : String :=
  "Tether agent\n" ++
  "Copyright (c) Tether contributors\n" ++
  "Licensed under the MIT license. This software is provided \"as is\", without\n" ++
  "warranty of any kind.\n"

end Agent

end RemoteAgent

import RemoteAgent.Agent.Basic
import RemoteAgent.FileProgram

/-!
# Installation of the agent

An agent that was copied to the home directory under a name of its own moves itself to where dials
look for it.
-/

namespace RemoteAgent.Agent

/-- Makes the directory that a path names something in. -/
def makeParent (p : Path) : FileProgram (Except IoError Unit) :=
  match p.parent? with
  | some parent => FileProgram.perform (.makeDirectories parent)
  | none => return .ok ()

/-- Copies a file, and removes it then if that is possible. -/
def copyOver (source destination : Path) : FileProgram (Except IoError Unit) := do
  match ← FileProgram.perform (.copy source destination) with
  | .error cause => return .error cause
  | .ok _ =>
    let _ ← FileProgram.perform (.removeFile source)
    return .ok ()

/-- Moves a file, replacing one that stands at its destination. A file that cannot be moved is
copied. -/
def relocate (source destination : Path) : FileProgram (Except AgentError Unit) := do
  match ← makeParent destination with
  | .error cause => return .error (.io cause)
  | .ok () =>
    match ← FileProgram.perform (.rename source destination) with
    | .ok _ => return .ok ()
    | .error _ => return (← copyOver source destination).mapError .io

/-- Moves the running executable to where this version belongs below the home directory. -/
def install (executable home : Path) : FileProgram (Except AgentError Unit) :=
  relocate executable (installPath (agentsDirectory home))

end RemoteAgent.Agent

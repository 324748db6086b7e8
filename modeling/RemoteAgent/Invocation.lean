import RemoteAgent.Version
import RemoteAgent.Agent.Basic
import RemoteAgent.Text.Basic

/-!
# Invocations of the agent

How the agent is started on the far side, and what a failure to start it means. The shell there is
not known beforehand: it shows itself by the exit code and the words with which it refuses.
-/

namespace RemoteAgent

/-- How paths are written for the remote shell. -/
inductive PathSyntax where
  | posix
  | windows
  deriving DecidableEq, Repr

def PathSyntax.separator : PathSyntax → String
  | posix => "/"
  | windows => "\\"

namespace Invocation

/-- The command line that starts the installed agent of a version. -/
def commandLine (version : Version) (s : PathSyntax) (logLevel : String) : String :=
  let path := s.separator.intercalate
    [Agent.dataDirectoryName, Agent.agentsDirectoryName, version.text, Agent.baseName]
  path ++ " endpoint --log-level=" ++ logLevel

inductive Failure where
  /-- The agent is not there, or cannot be run, and should be installed. -/
  | agentMissing
  /-- The command went to a shell with the other syntax of paths. -/
  | wrongShell
  | other
  deriving DecidableEq, Repr

/-- POSIX shells exit with this code when a command exists and cannot be run. -/
def notExecutableCode : Int := 126

/-- POSIX shells exit with this code when a command does not exist. -/
def notFoundCode : Int := 127

/-- What the Windows shell says of a path with forward slashes. -/
def notRecognizedText : String :=
  "is not recognized as an internal or external command"

/-- What the Windows shell says of a path that does not exist. -/
def pathNotFoundText : String :=
  "The system cannot find the path specified"

/-- Tells from the exit code, if there is one, and the error output what a failure means. -/
def classify (code : Option Int) (errorOutput : String) : Failure :=
  if code = some notExecutableCode ∨ code = some notFoundCode then .agentMissing
  else if Text.occursIn notRecognizedText.toList errorOutput.toList then .wrongShell
  else if Text.occursIn pathNotFoundText.toList errorOutput.toList then .agentMissing
  else .other

end Invocation

end RemoteAgent

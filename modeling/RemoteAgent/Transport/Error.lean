import RemoteAgent.IoError
import RemoteAgent.Prompt

/-!
# Failures of transports and of connections
-/

namespace RemoteAgent

inductive TransportError where
  | io (cause : IoError)
  | configuration (text : String)
  /-- A remote command failed; the code is -1 if a signal ended it. -/
  | commandFailed (code : Int) (output : String)
  /-- Nothing could be learned about a container. -/
  | container (text : String)
  /-- The user declined. -/
  | cancelled (text : String)
  | prompt (cause : PromptError)
  deriving DecidableEq, Repr

def TransportError.message : TransportError → String
  | io cause => "I/O error: " ++ cause.message
  | configuration text => "Configuration error: " ++ text
  | commandFailed code output => s!"Remote command failed with exit code {code}: {output}"
  | container text => "Unable to probe container: " ++ text
  | cancelled text => "Operation cancelled: " ++ text
  | prompt cause => cause.message

inductive ConnectionError where
  | missingPipe (name : String)
  | notRunning
  /-- Process pipes have no deadlines for this direction. -/
  | deadlineUnsupported (direction : String)
  | io (cause : IoError)
  deriving DecidableEq, Repr

def ConnectionError.message : ConnectionError → String
  | missingPipe name => s!"process is missing its {name} pipe"
  | notRunning => "connection is not running"
  | deadlineUnsupported direction =>
    s!"{direction} deadlines are not supported on process connections"
  | io cause => "I/O error: " ++ cause.message

end RemoteAgent

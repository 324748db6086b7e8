import RemoteAgent.Version
import RemoteAgent.Bundle.Error
import RemoteAgent.Transport.Error
import RemoteAgent.Platform.Basic

/-!
# Failures of dials

Each one names the phase that failed.
-/

namespace RemoteAgent

inductive DialError where
  | transport (cause : TransportError)
  | connection (cause : ConnectionError)
  | handshake (cause : ProtocolError)
  /-- The agent's process ended with a status that is no success. -/
  | agentFailed (status output : String)
  | versionMismatch (remote own : Version)
  | probe (cause : ProbeError)
  | extract (cause : BundleError)
  | copy (cause : TransportError)
  | install (cause : TransportError)
  /-- The attempt after an installation failed. -/
  | reconnect (cause : DialError)
  /-- A status message was not delivered. -/
  | prompt (cause : PromptError)
  deriving DecidableEq, Repr

def DialError.message : DialError → String
  | transport cause => "Unable to create transport: " ++ cause.message
  | connection cause => "Unable to connect to agent: " ++ cause.message
  | handshake cause => "Unable to handshake with agent: " ++ cause.message
  | agentFailed status output => s!"Agent failed to start ({status}): {output}"
  | versionMismatch remote own =>
    s!"Version mismatch: agent {remote.text}, client {own.text}"
  | probe cause => "Unable to probe endpoint: " ++ cause.message
  | extract cause => "Unable to extract agent: " ++ cause.message
  | copy cause => "Unable to copy agent: " ++ cause.message
  | install cause => "Unable to install agent: " ++ cause.message
  | reconnect cause => "Unable to connect to agent after installation: " ++ cause.message
  | prompt cause => "Unable to notify: " ++ cause.message

end RemoteAgent

import RemoteAgent.Config
import RemoteAgent.Connection.Agent
import RemoteAgent.Dial.Attempt
import RemoteAgent.Dial.Install
import RemoteAgent.Transport.Docker
import RemoteAgent.Transport.Ipfs
import RemoteAgent.Transport.Ssh

/-!
# Dials

A dial goes through the transport that the endpoint's protocol asks for. It starts the agent, taking
the remote shell for a POSIX one. If the shell turns out to be the Windows one, it tries again with
the other syntax. If the agent is missing, it is installed and one more attempt is made. Every other
failure ends the dial.
-/

namespace RemoteAgent

/-- The transport that an endpoint's protocol asks for. Endpoints served in this process have none.
-/
def Transport.ofEndpoint {ω : Type} (e : Endpoint) (host : Host ω) (p : Prompter ω)
    (options : TransportOptions) : Except TransportError (Transport (WithContainer ω) Command) :=
  let outside (t : Transport ω Command) : Transport (WithContainer ω) Command :=
    t.within WithContainer.outer fun w outer => { w with outer }
  match e.protocol with
  | .ssh => ((Ssh.mk e options.sshConnectTimeout p.identifier).create host).map outside
  | .docker => .ok ((Docker.new e).transport host p)
  | .ipfs => .ok (outside (Ipfs.transport ⟨e, options.ipfsHelper⟩ host))
  | .localHost | .inMemory =>
    .error (.configuration
      (e.protocol.text ++ " endpoints are served in-process and have no transport"))

namespace Dial

variable {ω κ : Type}

def connectMessage : String := "Connecting to agent..."

/-- What follows the last attempt before an installation. -/
def afterAttempt (t : Transport (World ω) κ) (p : Prompter (World ω)) (s : Setting)
    (paths : PathSyntax) : Except FailedAttempt Connection → Effect (World ω) DialError Connection
  | .ok connection => return connection
  | .error failed => do
    if failed.failure ≠ .agentMissing then throw failed.error
    installThrough t p s
    tell p connectMessage
    (attempt t s paths).mapError fun failed => .reconnect failed.error

/-- Reaches the agent, through a transport and a prompter that keep the journal. -/
def dialThrough (t : Transport (World ω) κ) (p : Prompter (World ω)) (s : Setting) :
    Effect (World ω) DialError Connection := do
  match ← (attempt t s .posix).attempt with
  | .error ⟨.wrongShell, _⟩ =>
    afterAttempt t p s .windows (← (attempt t s .windows).attempt)
  | outcome => afterAttempt t p s .posix outcome

/-- Reaches the agent on the far side of a transport, installing it if it is missing. -/
def dialTransport (t : Transport ω κ) (p : Prompter ω) (s : Setting) :
    Effect (World ω) DialError Connection :=
  dialThrough (World.transport t) (World.prompter p) s

def dial (e : Endpoint) (host : Host ω) (p : Prompter ω) (s : Setting) :
    Effect (World (WithContainer ω)) DialError AgentConnection := do
  if e.protocol.isInProcess then
    return .memory (← Effect.ofExcept (MemoryConnection.dial s.own s.own))
  let t ← Effect.ofExcept
    ((Transport.ofEndpoint e host p s.config.transport).mapError .transport)
  let outside : Prompter (WithContainer ω) :=
    p.within WithContainer.outer fun w outer => { w with outer }
  return .process (← dialTransport t outside s)

end Dial

end RemoteAgent

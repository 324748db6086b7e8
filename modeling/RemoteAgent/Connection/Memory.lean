import RemoteAgent.Agent.Serving
import RemoteAgent.Dial.Greeting
import RemoteAgent.Stream.Pipe

/-!
# Connections to agents in this process

The agent serves at the other end of two pipes. It takes in what it is sent whenever it can.
-/

namespace RemoteAgent

/-- A connection to an agent in this process; its incoming pipe is the one that is written to. -/
structure MemoryConnection where
  agent : PipeEnd Agent.Serving

namespace MemoryConnection

/-- How many bytes each pipe holds. -/
def pipeCapacity : Nat := 65536

/-- Lets the agent go on for as long as it can; when it has finished it writes no more. -/
def settle (c : MemoryConnection) : MemoryConnection :=
  let agent := c.agent.settle pipeCapacity
  if agent.result?.isSome then
    ⟨{ agent with outgoing := { agent.outgoing with closed := true } }⟩
  else ⟨agent⟩

/-- Writes after the end go nowhere. -/
def closedPipe : IoError :=
  .custom .brokenPipe "broken pipe"

def write (bytes : List UInt8) (c : MemoryConnection) : Except IoError Nat × MemoryConnection :=
  if bytes.isEmpty then (.ok 0, c)
  else if c.agent.incoming.closed then (.error closedPipe, c)
  else
    let incoming := { c.agent.incoming with content := c.agent.incoming.content ++ bytes }
    (.ok bytes.length, settle ⟨{ c.agent with incoming }⟩)

/-- Reads up to `limit` bytes of what the agent has written. Where the agent waits for its client, a
read would not return, and here it reads as the end. -/
def read (limit : Nat) (c : MemoryConnection) : List UInt8 × MemoryConnection :=
  let content := c.agent.outgoing.content
  (content.take limit,
    ⟨{ c.agent with outgoing := { c.agent.outgoing with content := content.drop limit } }⟩)

def shutdown (c : MemoryConnection) : MemoryConnection :=
  settle ⟨{ c.agent with incoming := { c.agent.incoming with closed := true } }⟩

/-- Connects to an agent started in this process: the agent goes as far as it can, then the client,
then the agent again. -/
def dial (client agent : Version) : Except DialError MemoryConnection :=
  let started := settle ⟨⟨.start agent, .empty, .empty⟩⟩
  let greeting : PipeEnd Dial.Greeting :=
    PipeEnd.settle pipeCapacity
      ⟨Dial.Greeting.start client, started.agent.outgoing, started.agent.incoming⟩
  match greeting.result? with
  | some (.ok ()) =>
    .ok (settle ⟨⟨started.agent.machine, greeting.outgoing, greeting.incoming⟩⟩)
  | some (.error cause) => .error cause
  | none => .error (.handshake (.truncated 0 Version.wireSize))

end MemoryConnection

end RemoteAgent

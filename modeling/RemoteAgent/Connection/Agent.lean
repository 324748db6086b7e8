import RemoteAgent.Connection.Basic
import RemoteAgent.Connection.Memory
import RemoteAgent.Stream.Collecting
import RemoteAgent.Stream.Writing

/-!
# Connections to agents

What a dial gives: a connection to a process or to an agent in this process.
-/

namespace RemoteAgent

inductive AgentConnection where
  | process (connection : Connection)
  | memory (connection : MemoryConnection)

namespace AgentConnection

def write (bytes : List UInt8) : AgentConnection → Except IoError Nat × AgentConnection
  | process c => (c.write bytes).map id .process
  | memory c => (c.write bytes).map id .memory

/-- Writes all of some bytes. -/
def writeAll (bytes : List UInt8) : AgentConnection → Except IoError Unit × AgentConnection
  | process c => (ByteStream.writeAll bytes c).map id .process
  | memory c => (c.write bytes).map (fun r => r.map fun _ => ()) .memory

def flush (c : AgentConnection) : Except IoError Unit × AgentConnection :=
  (.ok (), c)

def shutdown : AgentConnection → AgentConnection
  | process c => .process c.shutdown
  | memory c => .memory c.shutdown

/-- Reads `n` bytes, or fewer if the stream ends. -/
def readUpTo (n : Nat) : AgentConnection → Except IoError (List UInt8) × AgentConnection
  | process c => (ByteStream.readUpTo n c).map id .process
  | memory c => (c.read n).map .ok .memory

/-- Reads to the end of the stream. -/
def readToEnd : AgentConnection → Except IoError (List UInt8) × AgentConnection
  | process c => (ByteStream.readToEnd c).map id .process
  | memory c => (c.read c.agent.outgoing.content.length).map .ok .memory

/-- Stops the agent: closes the process, or ends what is written. -/
def close : AgentConnection → Except ConnectionError Unit × AgentConnection
  | process c => c.close.map (fun r => r.map fun _ => ()) .process
  | memory c => (.ok (), .memory c.shutdown)

end AgentConnection

end RemoteAgent

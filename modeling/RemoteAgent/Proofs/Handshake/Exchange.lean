import Mathlib.Logic.Relation
import RemoteAgent.Agent.Serving
import RemoteAgent.Dial.Greeting
import RemoteAgent.Stream.Pipe

/-! # Handshakes over two pipes

A client greets an agent that serves it. The two take their steps in any order and pass as many
bytes at a time as they like. A client whose greeting has succeeded goes on with bytes of its own;
in the end it hangs up.
-/

namespace RemoteAgent

open Relation StreamMachine

/-- A client and an agent, the pipes between them, and what each has written so far. -/
structure Exchange where
  client : Dial.Greeting
  agent : Agent.Serving
  toClient : Pipe
  toAgent : Pipe
  /-- What the client will still write once its greeting has succeeded. -/
  pending : List UInt8
  sentByClient : List UInt8
  sentByAgent : List UInt8

namespace Exchange

def start (client agent : Version) (payload : List UInt8) : Exchange where
  client := .start client
  agent := .start agent
  toClient := .empty
  toAgent := .empty
  pending := payload
  sentByClient := []
  sentByAgent := []

def clientEnd (x : Exchange) : PipeEnd Dial.Greeting :=
  ⟨x.client, x.toClient, x.toAgent⟩

def agentEnd (x : Exchange) : PipeEnd Agent.Serving :=
  ⟨x.agent, x.toAgent, x.toClient⟩

def withClient (x : Exchange) (e : PipeEnd Dial.Greeting) : Exchange where
  client := e.machine
  agent := x.agent
  toClient := e.incoming
  toAgent := e.outgoing
  pending := x.pending
  sentByClient := x.sentByClient ++ e.outgoing.content.drop x.toAgent.content.length
  sentByAgent := x.sentByAgent

def withAgent (x : Exchange) (e : PipeEnd Agent.Serving) : Exchange where
  client := x.client
  agent := e.machine
  toClient := e.outgoing
  toAgent := e.incoming
  pending := x.pending
  sentByClient := x.sentByClient
  sentByAgent := x.sentByAgent ++ e.outgoing.content.drop x.toClient.content.length

def greeted? (x : Exchange) : Option (Except DialError Unit) :=
  x.clientEnd.result?

def served? (x : Exchange) : Option (Except AgentError Unit) :=
  x.agentEnd.result?

/-- The client will write no more: its greeting has failed, or it has written what it had. -/
def IsDone (x : Exchange) : Prop :=
  ∃ result, x.greeted? = some result ∧ (result = .ok () → x.pending = [])

def IsFinished (x : Exchange) : Prop :=
  x.greeted?.isSome = true ∧ x.served?.isSome = true ∧ x.toAgent.closed = true

/-- The steps of an exchange over pipes that hold so many bytes. A write to a side that is gone may
fail. -/
inductive Step (clientCapacity agentCapacity : Nat) : Exchange → Exchange → Prop where

  | client {x : Exchange} {grain : Nat} {e : PipeEnd Dial.Greeting} :
      x.clientEnd.step? agentCapacity grain = some e →
      Step clientCapacity agentCapacity x (x.withClient e)

  | agent {x : Exchange} {grain : Nat} {e : PipeEnd Agent.Serving} :
      x.agentEnd.step? clientCapacity grain = some e →
      Step clientCapacity agentCapacity x (x.withAgent e)

  /-- The client writes bytes of its own. -/
  | speak {x : Exchange} {count : Nat} :
      x.greeted? = some (.ok ()) → x.toAgent.closed = false → 0 < count →
      count ≤ x.pending.length → x.toAgent.content.length + count ≤ agentCapacity →
      Step clientCapacity agentCapacity x
        { x with
          toAgent := { x.toAgent with content := x.toAgent.content ++ x.pending.take count }
          pending := x.pending.drop count
          sentByClient := x.sentByClient ++ x.pending.take count }

  | hangUp {x : Exchange} :
      x.IsDone → x.toAgent.closed = false →
      Step clientCapacity agentCapacity x { x with toAgent := { x.toAgent with closed := true } }

  /-- The agent's side of the pipe is closed once it has finished. -/
  | leave {x : Exchange} :
      x.served?.isSome = true → x.toClient.closed = false →
      Step clientCapacity agentCapacity x { x with toClient := { x.toClient with closed := true } }

  | clientBroken {x : Exchange} {bytes : List UInt8} {next : Except IoError Nat → Dial.Greeting} :
      action x.client = .write bytes next → x.served?.isSome = true →
      Step clientCapacity agentCapacity x
        { x with client := next (.error (.system .brokenPipe)) }

  | agentBroken {x : Exchange} {bytes : List UInt8} {next : Except IoError Nat → Agent.Serving} :
      action x.agent = .write bytes next → x.toAgent.closed = true →
      Step clientCapacity agentCapacity x
        { x with agent := next (.error (.system .brokenPipe)) }

end Exchange

end RemoteAgent
